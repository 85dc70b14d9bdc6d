/-!
# Decimal digits

A numeral is a list of decimal digits, most significant first. `value` reads one, `Nat.repr` writes
one, and `padded` writes one of at least a given width.
-/

namespace ReleaseHistory.Text

def isDigit (c : Char) : Bool := '0' ≤ c && c ≤ '9'

/-- What a digit stands for; letters and signs have no meaning here. -/
def digitValue (c : Char) : Nat := c.toNat - '0'.toNat

def value (cs : List Char) : Nat :=
  cs.foldl (fun n c => 10 * n + digitValue c) 0

def maxWord : Nat := 18446744073709551615

/-- The number that a one and `k` zeros write. -/
def powerOfTen (k : Nat) : Nat := Nat.pow 10 k

/-- A number in decimal digits, with zeros in front up to a width. -/
def padded (width n : Nat) : String :=
  let digits := Nat.repr n
  String.ofList (List.replicate (width - digits.length) '0') ++ digits

def hexDigit (n : Nat) : Char :=
  if n < 10 then Char.ofNat ('0'.toNat + n) else Char.ofNat ('a'.toNat + (n - 10))

def hexValue? (c : Char) : Option Nat :=
  if isDigit c then some (digitValue c)
  else if 'a' ≤ c && c ≤ 'f' then some (c.toNat - 'a'.toNat + 10)
  else if 'A' ≤ c && c ≤ 'F' then some (c.toNat - 'A'.toNat + 10)
  else none

/-- The number that a list of hexadecimal digits writes, if it holds nothing else. -/
def hexNumber? (cs : List Char) : Option Nat :=
  cs.foldlM (fun n c => (hexValue? c).map (16 * n + ·)) 0

def hexOfBytes (bs : List UInt8) : String :=
  String.ofList (bs.flatMap fun b => [hexDigit (b.toNat / 16), hexDigit (b.toNat % 16)])

/-- A numeral of 64 bits as a person writes it: a plus sign may stand in front, and zeros do. -/
def word? (s : String) : Option Nat :=
  let digits := match s.toList with
    | '+' :: cs => cs
    | cs => cs
  if digits.isEmpty || !digits.all isDigit then none
  else if value digits ≤ maxWord then some (value digits) else none

end ReleaseHistory.Text
