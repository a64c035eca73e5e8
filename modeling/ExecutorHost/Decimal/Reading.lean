import ExecutorHost.Binary64

/-!
# Reading decimals

A decimal is read as a natural number and a power of ten. The natural number takes digits as long as
it fits into a machine word of 64 bits; further digits before the point only raise the power, and
further digits behind it are dropped. Its double is then multiplied or divided by the double of the
power. For short decimals that is the nearest double, and for long ones it may be a neighbour.
-/

namespace ExecutorHost.Decimal

/-- The value of a decimal digit. -/
def digitValue (c : Char) : Nat := c.toNat - '0'.toNat

/-- A natural number that takes one more digit, if it still fits into a machine word. -/
def append? (n : Nat) (digit : Char) : Option Nat :=
  let longer := 10 * n + digitValue digit
  if longer < UInt64.size then some longer else none

/-- The digits before the point: the natural number and the count of digits that it did not take. -/
def takeWhole (n : Nat) : List Char → Nat × Nat
  | [] => (n, 0)
  | d :: digits =>
    match append? n d with
    | some longer => takeWhole longer digits
    | none => (n, digits.length + 1)

/-- The digits behind the point: the natural number and the count of digits that it took. -/
def takeFraction (n : Nat) : List Char → Nat × Nat
  | [] => (n, 0)
  | d :: digits =>
    match append? n d with
    | some longer =>
      let (m, count) := takeFraction longer digits
      (m, count + 1)
    | none => (n, 0)

/-- The largest power of ten that a finite double holds. -/
def maxPower : Nat := 308

/-- The double of a power of ten. -/
def power (exponent : Nat) : Binary64 := Binary64.nearest (Nat.pow 10 exponent) 1

/-- A double times a power of ten, or nothing when that is too large. -/
def scale (x : Binary64) (exponent : Int) : Option Binary64 :=
  if exponent.natAbs ≤ maxPower then
    if 0 ≤ exponent then x.timesMagnitude? (power exponent.toNat)
    else some (x.overMagnitude (power (-exponent).toNat))
  else if x.isZero then some x
  else if 0 ≤ exponent then none
  else scale (x.overMagnitude (power maxPower)) (exponent + maxPower)
termination_by (-exponent).toNat
decreasing_by
  simp only [maxPower] at *
  omega

/-- The double of a decimal's natural number and power of ten, or nothing when it is too large. -/
def double? (n : Nat) (exponent : Int) : Option Binary64 := scale (Binary64.nearest n 1) exponent

/-- The largest exponent that is told from larger ones. -/
def maxExponent : Nat := 0x7fffffff

/--
The double of a decimal with its exponent written out. With an exponent too large to be told from
larger ones, a decimal that is not zero is too large or vanishes.
-/
def withExponent? (n : Nat) (shift : Int) (written : Int) : Option Binary64 :=
  if written.natAbs ≤ maxExponent then double? n (shift + written)
  else if n ≠ 0 ∧ 0 < written then none
  else some ⟨0⟩

end ExecutorHost.Decimal
