import ReleaseHistory.Text.Digits

/-!
# Doubles

A finite double is a sign and a significand times a power of two. Every operation computes the exact
quotient of two natural numbers and rounds it once, to nearest with ties to the even significand.
-/

namespace ReleaseHistory.Decimal

/-- A finite double: `significand * 2 ^ exponent`, with its sign. The significand has 53 bits unless
the exponent is the least one. -/
structure Binary64 where
  negative : Bool
  significand : Nat
  exponent : Int
  deriving DecidableEq, Repr

namespace Binary64

def minExponent : Int := -1074

def maxExponent : Int := 971

def fullSignificand : Nat := 0x10000000000000

def zero (negative : Bool) : Binary64 := ⟨negative, 0, minExponent⟩

/-- The nearest integer to a quotient, the even one of two. -/
def roundQuotient (num den : Nat) : Nat :=
  let q := num / den
  let r := num % den
  if den < 2 * r || (den = 2 * r && q % 2 = 1) then q + 1 else q

/-- The quotient of a number by a power of two, as a fraction. -/
def scale (num den : Nat) (exponent : Int) : Nat × Nat :=
  if exponent < 0 then (num <<< exponent.natAbs, den) else (num, den <<< exponent.toNat)

/-- The double nearest to a quotient of natural numbers; none if it is beyond all of them. -/
def ofQuotient (negative : Bool) (num den : Nat) : Option Binary64 :=
  if num = 0 then some (zero negative)
  else
    let guess : Int := (Nat.log2 num : Int) - (Nat.log2 den : Int) - 52
    let fits := fun (e : Int) => let (n, d) := scale num den e; fullSignificand ≤ n / d
    let exponent := max (if fits guess then guess else guess - 1) minExponent
    let (n, d) := scale num den exponent
    let m := roundQuotient n d
    let (m, exponent) := if m = 2 * fullSignificand then (fullSignificand, exponent + 1) else (m, exponent)
    if maxExponent < exponent then none else some ⟨negative, m, exponent⟩

def ofNat (negative : Bool) (n : Nat) : Option Binary64 := ofQuotient negative n 1

/-- The absolute value as a fraction. -/
def toQuotient (x : Binary64) : Nat × Nat := scale x.significand 1 (-x.exponent)

/-- The product with a power of ten, which is itself first rounded to a double. -/
def scaleUp (x : Binary64) (k : Nat) : Option Binary64 := do
  let (n, d) := x.toQuotient
  let (pn, pd) := (← ofNat false (Text.powerOfTen k)).toQuotient
  ofQuotient x.negative (n * pn) (d * pd)

/-- The quotient by a power of ten, which is itself first rounded to a double. -/
def scaleDown (x : Binary64) (k : Nat) : Option Binary64 := do
  let (n, d) := x.toQuotient
  let (pn, pd) := (← ofNat false (Text.powerOfTen k)).toQuotient
  ofQuotient x.negative (n * pd) (d * pn)

/-- Equality of values: the two zeros are equal. -/
def sameValue (x y : Binary64) : Bool :=
  x.significand == y.significand &&
    (x.significand == 0 || (x.negative == y.negative && x.exponent == y.exponent))

end Binary64

end ReleaseHistory.Decimal
