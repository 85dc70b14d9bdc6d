import ReleaseHistory.Json.Basic
import ReleaseHistory.Text.Digits

/-!
# Reading JSON

Each reader takes the characters left and returns what it read with the characters after it. Nested
values are read with a bound on the number of steps, which the number of characters supplies.
-/

namespace ReleaseHistory.Json

def isSpace (c : Char) : Bool := c = ' ' || c = '\n' || c = '\r' || c = '\t'

def skipSpace (cs : List Char) : List Char := cs.dropWhile isSpace

/-! ### Numbers -/

/-- A decimal as it is read: a significand of 64 bits, and a power of ten. -/
structure Scanned where
  significand : Nat
  exponent : Int

/-- Adds the digits before the point. -/
def addWhole (s : Scanned) : List Char → Scanned
  | [] => s
  | c :: cs =>
    let n := 10 * s.significand + Text.digitValue c
    if s.exponent = 0 && n ≤ Text.maxWord then addWhole ⟨n, 0⟩ cs
    -- what does not fit any more only raises the exponent
    else addWhole ⟨s.significand, s.exponent + 1⟩ cs

/-- Adds the digits after the point up to the first that does not fit. -/
def addFraction (s : Scanned) : List Char → Scanned
  | [] => s
  | c :: cs =>
    let n := 10 * s.significand + Text.digitValue c
    if n ≤ Text.maxWord then addFraction ⟨n, s.exponent - 1⟩ cs else s

def maxExponent : Nat := 0x7fffffff

/-- Divides by `10 ^ 308` until the exponent is in reach. -/
def lower (fuel : Nat) (x : Decimal.Binary64) (exponent : Nat) : Option Decimal.Binary64 :=
  match fuel with
  | 0 => some x
  | fuel + 1 =>
    if x.significand = 0 then some x
    else if exponent ≤ 308 then x.scaleDown exponent
    else (x.scaleDown 308).bind fun y => lower fuel y (exponent - 308)

/-- The double of a scanned decimal: the significand is rounded first, and then its product or
quotient with the power of ten. -/
def Scanned.toReal (s : Scanned) (negative : Bool) : Option Decimal.Binary64 := do
  let x ← Decimal.Binary64.ofNat negative s.significand
  if s.exponent < 0 then lower 8 x s.exponent.natAbs
  else if s.exponent ≤ 308 then x.scaleUp s.exponent.toNat
  else if s.significand = 0 then some x
  else none

/-- The value of a number from its sign, digits, fraction and exponent. -/
def numberValue (negative : Bool) (whole : List Char) (fraction : Option (List Char))
    (exponent : Option (Bool × List Char)) : Json :=
  let s := addWhole ⟨0, 0⟩ whole
  let s' := match fraction with
    | none => s
    | some digits => addFraction s digits
  let real := fun (t : Scanned) =>
    match t.toReal negative with
    | some x => Json.real x
    | none => .unreadable
  match exponent with
  | some (negativeExponent, digits) =>
    let e := Text.value digits
    if maxExponent < e then
      if s'.significand ≠ 0 && !negativeExponent then .unreadable
      else .real (Decimal.Binary64.zero negative)
    else real ⟨s'.significand, if negativeExponent then s'.exponent - e else s'.exponent + e⟩
  | none =>
    if fraction.isSome || s.exponent ≠ 0 then real s'
    else if !negative then .integer s.significand
    else if s.significand = 0 || 0x8000000000000000 < s.significand then real s
    else .integer (-(s.significand : Int))

def readExponent (cs : List Char) : Option (Bool × List Char × List Char) :=
  let (negative, cs) := match cs with
    | '-' :: cs => (true, cs)
    | '+' :: cs => (false, cs)
    | cs => (false, cs)
  let digits := cs.takeWhile Text.isDigit
  if digits.isEmpty then none else some (negative, digits, cs.dropWhile Text.isDigit)

/-- Reads a number. A leading zero stands alone, and a point and an exponent have digits. -/
def readNumber (cs : List Char) : Option (Json × List Char) := do
  let (negative, cs) := match cs with
    | '-' :: cs => (true, cs)
    | cs => (false, cs)
  let whole := cs.takeWhile Text.isDigit
  let cs := cs.dropWhile Text.isDigit
  if whole.isEmpty || (whole.head? = some '0' && whole.length ≠ 1) then none
  let (fraction, cs) ← match cs with
    | '.' :: cs =>
      let digits := cs.takeWhile Text.isDigit
      if digits.isEmpty then none else some (some digits, cs.dropWhile Text.isDigit)
    | cs => some (none, cs)
  let (exponent, cs) ← match cs with
    | c :: rest =>
      if c = 'e' || c = 'E' then
        (readExponent rest).map fun (negative, digits, rest) => (some (negative, digits), rest)
      else some (none, c :: rest)
    | [] => some (none, [])
  return (numberValue negative whole fraction exponent, cs)

/-! ### Strings -/

/-- The units of a string: a character, or a unit of UTF-16 that was written as an escape. -/
inductive Unit16
  | char (c : Char)
  | escaped (n : Nat)

def readUnits (cs : List Char) : Option (List Unit16 × List Char) :=
  match cs with
  | [] => none
  | '\x22' :: cs => some ([], cs)
  | '\\' :: 'u' :: a :: b :: c :: d :: cs => do
    let n ← Text.hexNumber? [a, b, c, d]
    let (units, rest) ← readUnits cs
    return (.escaped n :: units, rest)
  | '\\' :: c :: cs => do
    let meaning ← [('\x22', '\x22'), ('\\', '\\'), ('/', '/'), ('b', '\x08'), ('f', '\x0c'),
      ('n', '\n'), ('r', '\r'), ('t', '\t')].lookup c
    let (units, rest) ← readUnits cs
    return (.char meaning :: units, rest)
  | c :: cs =>
    if c.toNat < 0x20 then none
    else do
      let (units, rest) ← readUnits cs
      return (.char c :: units, rest)

/-- The characters of a string; a surrogate must come as the first or second half of a pair. -/
def joinUnits : List Unit16 → Option (List Char)
  | [] => some []
  | .char c :: units => (joinUnits units).map (c :: ·)
  | .escaped n :: units =>
    if 0xd800 ≤ n && n ≤ 0xdbff then
      match units with
      | .escaped m :: units =>
        if 0xdc00 ≤ m && m ≤ 0xdfff then
          (joinUnits units).map (Char.ofNat (0x10000 + (n - 0xd800) * 0x400 + (m - 0xdc00)) :: ·)
        else none
      | _ => none
    else if 0xdc00 ≤ n && n ≤ 0xdfff then none
    else (joinUnits units).map (Char.ofNat n :: ·)

/-- Reads a string after its opening quote. The text is missing if the string has none. -/
def readString (cs : List Char) : Option (Option String × List Char) := do
  let (units, rest) ← readUnits cs
  return ((joinUnits units).map String.ofList, rest)

/-! ### Values -/

def readWord (word : List Char) (meaning : Json) (cs : List Char) : Option (Json × List Char) :=
  if cs.take word.length = word then some (meaning, cs.drop word.length) else none

mutual

def readValue (fuel : Nat) (cs : List Char) : Option (Json × List Char) :=
  match fuel with
  | 0 => none
  | fuel + 1 =>
    match skipSpace cs with
    | [] => none
    | '\x22' :: cs => do
      let (s, rest) ← readString cs
      return (match s with | some s => .string s | none => .unreadable, rest)
    | '[' :: cs =>
      match skipSpace cs with
      | ']' :: rest => some (.array [], rest)
      | cs => do
        let (items, rest) ← readItems fuel cs
        return (.array items, rest)
    | '\x7b' :: cs =>
      match skipSpace cs with
      | '\x7d' :: rest => some (.object [], rest)
      | cs => do
        let (members, rest) ← readMembers fuel cs
        return (match members with | some ms => .object ms | none => .unreadable, rest)
    | 'n' :: cs => readWord ['u', 'l', 'l'] .null cs
    | 't' :: cs => readWord ['r', 'u', 'e'] (.bool true) cs
    | 'f' :: cs => readWord ['a', 'l', 's', 'e'] (.bool false) cs
    | cs => readNumber cs

def readItems (fuel : Nat) (cs : List Char) : Option (List Json × List Char) :=
  match fuel with
  | 0 => none
  | fuel + 1 => do
    let (item, rest) ← readValue fuel cs
    match skipSpace rest with
    | ',' :: rest => do
      let (items, rest) ← readItems fuel rest
      return (item :: items, rest)
    | ']' :: rest => return ([item], rest)
    | _ => none

/-- Reads the members of an object up to its brace. There are none if one of the names has no
text. -/
def readMembers (fuel : Nat) (cs : List Char) :
    Option (Option (List (String × Json)) × List Char) :=
  match fuel with
  | 0 => none
  | fuel + 1 =>
    match skipSpace cs with
    | '\x22' :: cs => do
      let (name, rest) ← readString cs
      match skipSpace rest with
      | ':' :: rest => do
        let (value, rest) ← readValue fuel rest
        match skipSpace rest with
        | ',' :: rest => do
          let (members, rest) ← readMembers fuel rest
          return ((do return (← name, value) :: (← members)), rest)
        | '\x7d' :: rest => return (name.map fun name => [(name, value)], rest)
        | _ => none
      | _ => none
    | _ => none

end

def parse? (s : String) : Option Json := do
  let cs := s.toList
  let (j, rest) ← readValue (2 * cs.length + 2) cs
  if (skipSpace rest).isEmpty then some j else none

end ReleaseHistory.Json
