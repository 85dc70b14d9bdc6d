import ReleaseHistory.Decimal.Binary64

/-!
# Shortest decimal digits

The decimal of a double has the fewest digits of all that round to it, and of those it is the one
nearest to it. It is found on ever finer decimal grids: if any point of a grid rounds to the double
then one of the two grid points around the double does.
-/

namespace ReleaseHistory.Decimal

/-- A decimal: `digits * 10 ^ exponent`. -/
structure Digits where
  digits : Nat
  exponent : Int
  deriving DecidableEq, Repr

namespace Binary64

/-- Whether a fraction rounds to a positive double: it lies between the midpoints to the two
neighbours, which themselves round to even significands. -/
def isNear (x : Binary64) (num den : Nat) : Bool :=
  -- All is compared in quarters of the double's last place.
  let (n, d) := scale (4 * num) den x.exponent
  let m := 4 * x.significand
  let below := if x.significand = fullSignificand && minExponent < x.exponent then 1 else 2
  if x.significand % 2 = 0 then (m - below) * d ≤ n && n ≤ (m + 2) * d
  else (m - below) * d < n && n < (m + 2) * d

/-- A power of ten times a number, as a fraction. -/
def tenfold (n : Nat) (exponent : Int) : Nat × Nat :=
  if exponent < 0 then (n, Text.powerOfTen exponent.natAbs)
  else (n * Text.powerOfTen exponent.toNat, 1)

/-- The nearest multiple of a power of ten that rounds to a double, if there is one; the even one of
two equally near. -/
def onGrid? (x : Binary64) (exponent : Int) : Option Nat :=
  let (n, d) := x.toQuotient
  let (gn, gd) := tenfold 1 exponent
  let low := n * gd / (d * gn)
  let near := fun k => let (a, b) := tenfold k exponent; x.isNear a b
  -- twice the distance of the double from the lower point against the width of the grid
  let twice := 2 * (n * gd - low * (d * gn))
  match near low && 0 < low, near (low + 1) with
  | true, true =>
    if twice < d * gn || (twice = d * gn && low % 2 = 0) then some low else some (low + 1)
  | true, false => some low
  | false, true => some (low + 1)
  | false, false => none

/-- The first grid with a hit, from `exponent` downwards. -/
def firstGrid (x : Binary64) : Nat → Int → Digits
  | 0, exponent => ⟨0, exponent⟩
  | fuel + 1, exponent =>
    match x.onGrid? exponent with
    | some digits => ⟨digits, exponent⟩
    | none => firstGrid x fuel (exponent - 1)

/-- The exponent of the first decimal digit of a double, or one more. -/
def leadingExponent (x : Binary64) : Int :=
  let (n, d) := x.toQuotient
  ((Nat.repr n).length : Int) - (Nat.repr d).length + 1

/-- The shortest digits of a double. A grid of at most 19 digits always has a hit. -/
def shortest (x : Binary64) : Digits :=
  if x.significand = 0 then ⟨0, 0⟩ else x.firstGrid 24 x.leadingExponent

end Binary64

/-- How a decimal is written: which numbers get an exponent and how that looks. -/
structure Style where
  /-- Whether a number is written with an exponent, by the power of ten just above it. -/
  scientific : Int → Bool
  /-- The sign of an exponent that is not negative. -/
  plus : String

namespace Style

def zeros (n : Nat) : String := String.ofList (List.replicate n '0')

/-- Digits written with their decimal point; a whole number ends in `.0`. -/
def positional (d : Digits) : String :=
  let digits := Nat.repr d.digits
  let point := (digits.length : Int) + d.exponent
  if 0 ≤ d.exponent then digits ++ zeros d.exponent.toNat ++ ".0"
  else if 0 < point then
    String.ofList (digits.toList.take point.toNat) ++ "." ++
      String.ofList (digits.toList.drop point.toNat)
  else "0." ++ zeros point.natAbs ++ digits

def scientificText (s : Style) (d : Digits) : String :=
  let digits := (Nat.repr d.digits).toList
  let exponent := (digits.length : Int) + d.exponent - 1
  let mantissa := match digits with
    | [] => ""
    | [c] => c.toString
    | c :: cs => c.toString ++ "." ++ String.ofList cs
  mantissa ++ "e" ++ (if exponent < 0 then "-" else s.plus) ++ Nat.repr exponent.natAbs

/-- A double as written in a style. -/
def text (s : Style) (x : Binary64) : String :=
  let d := x.shortest
  let sign := if x.negative then "-" else ""
  if x.significand = 0 then sign ++ "0.0"
  else if s.scientific ((Nat.repr d.digits).length + d.exponent) then sign ++ s.scientificText d
  else sign ++ positional d

end Style

end ReleaseHistory.Decimal
