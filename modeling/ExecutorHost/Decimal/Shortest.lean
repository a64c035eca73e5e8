import ExecutorHost.Binary64

/-!
# The shortest decimal that reads back

A double stands for every real number that rounds to it: an interval around its value that reaches
half way to both neighbours and contains its ends exactly when the fraction is even. On the grid of
decimals with a given last place only the two grid points around the value can be nearest, so for
one digit, then two, and so on, both are tested in exact integer arithmetic. Seventeen digits always
suffice.
-/

namespace ExecutorHost.Decimal

/-- A decimal `digits · 10 ^ exponent`. -/
structure Scaled where
  /-- The digits, as a natural number. -/
  digits : Nat
  /-- The place of the last digit. -/
  exponent : Int
deriving DecidableEq, Repr, Inhabited

/-- The number of decimal digits of a natural number; zero has one. -/
def digitCount (n : Nat) : Nat := (Nat.toDigits 10 n).length

/-- The exponent of the leading digit of a positive ratio: `10 ^ e ≤ num / den < 10 ^ (e + 1)`. -/
def leadingExponent (num den : Nat) : Int :=
  if den ≤ num then (digitCount (num / den) : Int) - 1
  else -(digitCount ((den - 1) / num) : Int)

/--
The interval of reals that round to a positive double, in units of a quarter of its last place:
the lower end, the value and the upper end. Below a power of two the lower neighbour is nearer.
-/
def quarters (m : Nat) (q : Int) : Nat × Nat × Nat :=
  (if m = Binary64.fractionCount ∧ -1074 < q then 4 * m - 1 else 4 * m - 2, 4 * m, 4 * m + 2)

/--
The decimal with last place `10 ^ k` that is nearest to `m · 2 ^ q` among those that read back, if
one does. Both neighbours of the value on the grid are compared with the interval over a common
denominator. Of two that are equally near, the one with the even last digit is taken.
-/
def onGrid? (m : Nat) (q k : Int) : Option Scaled :=
  let (low, mid, high) := quarters m q
  let scale := Nat.pow 10 (-k).toNat <<< (q - 2).toNat
  let unit := Nat.pow 10 k.toNat <<< (2 - q).toNat
  let (low, mid, high) := (low * scale, mid * scale, high * scale)
  let inside (d : Nat) : Bool :=
    if m % 2 = 0 then low ≤ d * unit ∧ d * unit ≤ high else low < d * unit ∧ d * unit < high
  let below := mid / unit
  let above := below + 1
  let nearer := mid - below * unit < above * unit - mid
  let even := mid - below * unit = above * unit - mid ∧ below % 2 = 0
  if inside below ∧ (¬ inside above ∨ nearer ∨ even) then some ⟨below, k⟩
  else if inside above then some ⟨above, k⟩
  else none

/-- The decimal of fewest digits that reads back as `m · 2 ^ q`, for a positive double. -/
def shortest (m : Nat) (q : Int) : Scaled :=
  let lead := leadingExponent (m <<< q.toNat) (1 <<< (-q).toNat)
  let tried := (List.range 17).findSome? fun (n : Nat) => onGrid? m q (lead - n)
  tried.getD ⟨m, q⟩

/-- A decimal without trailing zeros in its digits; `fuel` bounds the zeros that are dropped. -/
def Scaled.trimmed : (fuel : Nat) → Scaled → Scaled
  | 0, d => d
  | fuel + 1, d =>
    if d.digits ≠ 0 ∧ d.digits % 10 = 0 then Scaled.trimmed fuel ⟨d.digits / 10, d.exponent + 1⟩
    else d

end ExecutorHost.Decimal
