/-!
# Double precision numbers

A finite double is kept as its 64 bits: the sign, eleven bits of biased exponent and fifty-two bits
of fraction. Its magnitude is the exact product `m · 2 ^ q` of two integers, so every question about
its value is a question about integers. A ratio of naturals is turned into the nearest double, an
exact half going to the even neighbour.
-/

namespace ExecutorHost

/-- A finite double precision number. -/
structure Binary64 where
  /-- The sign bit, the biased exponent and the fraction, from the most significant bit on. -/
  bits : UInt64
deriving DecidableEq, Repr, Inhabited

namespace Binary64

/-- The number of values that the fraction can have. -/
def fractionCount : Nat := 0x10000000000000

/-- The number of values that the biased exponent can have; the last one is for infinities. -/
def exponentCount : Nat := 0x800

/-- The sign bit is set; negative zero is negative. -/
def isNegative (x : Binary64) : Bool := x.bits.toNat.testBit 63

/-- The number of the opposite sign. -/
def neg (x : Binary64) : Binary64 := ⟨x.bits ^^^ 0x8000000000000000⟩

/-- The magnitude `m · 2 ^ q` as the pair `(m, q)`. -/
def magnitude (x : Binary64) : Nat × Int :=
  let fraction : Nat := x.bits.toNat % fractionCount
  let biased : Nat := x.bits.toNat / fractionCount % exponentCount
  if biased = 0 then (fraction, -1074) else (fractionCount + fraction, (biased : Int) - 1075)

/-- The magnitude as a ratio of naturals with a positive denominator. -/
def ratio (x : Binary64) : Nat × Nat :=
  let (m, q) := x.magnitude
  (m <<< q.toNat, 1 <<< (-q).toNat)

/-- A quotient rounded to the nearest natural; an exact half goes to the even one. -/
def roundHalfEven (num den : Nat) : Nat :=
  let whole := num / den
  let twice := 2 * (num % den)
  if twice < den ∨ (twice = den ∧ whole % 2 = 0) then whole else whole + 1

/--
The double nearest to a ratio with a positive denominator, or nothing when that is beyond the
largest finite double. The exponent is chosen so that the quotient has fifty-three digits or the
number is subnormal; a quotient that rounds up to the next power of two carries into the exponent.
-/
def ofRatio? (num den : Nat) : Option Binary64 :=
  if num = 0 then some ⟨0⟩ else
  let estimate : Int := (num.log2 : Int) - den.log2
  let atLeast := den <<< estimate.toNat ≤ num <<< (-estimate).toNat
  let q := max ((if atLeast then estimate else estimate - 1) - 52) (-1074)
  let m := roundHalfEven (num <<< (-q).toNat) (den <<< q.toNat)
  let bits := (q + 1074).toNat * fractionCount + m
  if bits < (exponentCount - 1) * fractionCount then some ⟨bits.toUInt64⟩ else none

/-! ## Arithmetic on magnitudes -/

/-- The double nearest to a ratio that is known to be in range. -/
def nearest (num den : Nat) : Binary64 := (ofRatio? num den).getD ⟨0⟩

/-- The double nearest to the sum of two magnitudes. -/
def addMagnitudes (x y : Binary64) : Binary64 :=
  let (a, b) := x.ratio
  let (c, d) := y.ratio
  nearest (a * d + c * b) (b * d)

/-- The double nearest to a magnitude times a natural number. -/
def scaleMagnitude (x : Binary64) (factor : Nat) : Binary64 :=
  let (a, b) := x.ratio
  nearest (a * factor) b

/-- The magnitude is zero. -/
def isZero (x : Binary64) : Bool := x.magnitude.1 == 0

/-- The double nearest to the product of two magnitudes, or nothing when it is too large. -/
def timesMagnitude? (x y : Binary64) : Option Binary64 :=
  let (a, b) := x.ratio
  let (c, d) := y.ratio
  ofRatio? (a * c) (b * d)

/-- The double nearest to the quotient of two magnitudes that is known to be in range. -/
def overMagnitude (x y : Binary64) : Binary64 :=
  let (a, b) := x.ratio
  let (c, d) := y.ratio
  nearest (a * d) (b * c)

/-- A magnitude with a number of decimal places, the exact value rounded half to even. -/
def fixedMagnitude (places : Nat) (x : Binary64) : String :=
  let (a, b) := x.ratio
  let unit := Nat.pow 10 places
  let scaled := roundHalfEven (a * unit) b
  let digits := Nat.toDigits 10 (scaled % unit)
  let padding := List.replicate (places - digits.length) '0'
  s!"{scaled / unit}.{String.ofList (padding ++ digits)}"

end Binary64

end ExecutorHost
