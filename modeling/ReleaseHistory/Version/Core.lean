import ReleaseHistory.Text.Blank
import ReleaseHistory.Text.Digits

/-!
# Semantic versions

A core version is three numbers and a list of prerelease identifiers. Reading is strict: no leading
zeros, no empty identifier, and the three numbers fit in 64 bits. Precedence follows the numbers,
then the identifiers, and a version without prerelease comes after all its prereleases.
-/

namespace ReleaseHistory.Version

/-- One dot-separated identifier of a prerelease. A numeric one has no leading zeros, so its value
says how it is written. -/
inductive Identifier
  | numeric (n : Nat)
  | word (text : String)
  deriving DecidableEq, Repr

/-- The parts of a version at which reading can stop. -/
inductive Part
  | major
  | minor
  | patch
  | prerelease
  deriving DecidableEq, Repr

inductive Malformed
  | empty
  | endsIn (part : Part)
  | unexpected (part : Part) (c : Char)
  | unexpectedAfter (part : Part) (c : Char)
  | leadingZero (part : Part)
  | tooLarge (part : Part)
  | emptyIdentifier
  deriving DecidableEq, Repr

/-- The numbers and prerelease identifiers of a version. -/
structure Core where
  major : Nat
  minor : Nat
  patch : Nat
  prerelease : List Identifier
  deriving DecidableEq, Repr

namespace Identifier

def isMember (c : Char) : Bool :=
  Text.isDigit c || ('a' ≤ c && c ≤ 'z') || ('A' ≤ c && c ≤ 'Z') || c = '-'

def text : Identifier → String
  | numeric n => Nat.repr n
  | word s => s

def ofChars (cs : List Char) : Except Malformed Identifier :=
  if cs.isEmpty then .error .emptyIdentifier
  else if cs.all Text.isDigit then
    if cs.head? = some '0' && cs.length ≠ 1 then .error (.leadingZero .prerelease)
    else .ok (numeric (Text.value cs))
  else .ok (word (String.ofList cs))

/-- Numbers come before words; numbers compare by value and words by their characters. -/
def precedence : Identifier → Identifier → Ordering
  | numeric m, numeric n => compare m n
  | numeric _, word _ => .lt
  | word _, numeric _ => .gt
  | word s, word t => compare s t

end Identifier

namespace Core

def readNumber (part : Part) (cs : List Char) : Except Malformed (Nat × List Char) :=
  let digits := cs.takeWhile Text.isDigit
  let rest := cs.dropWhile Text.isDigit
  if digits.isEmpty then
    match rest with
    | [] => .error (.endsIn part)
    | c :: _ => .error (.unexpected part c)
  else if digits.head? = some '0' && digits.length ≠ 1 then .error (.leadingZero part)
  else if Text.maxWord < Text.value digits then .error (.tooLarge part)
  else .ok (Text.value digits, rest)

def readDot (part : Part) : List Char → Except Malformed (List Char)
  | [] => .error (.endsIn part)
  | c :: cs => if c = '.' then .ok cs else .error (.unexpectedAfter part c)

/-- Reads the identifiers of a prerelease up to the first character that cannot belong to one. -/
def readPrerelease (cs : List Char) : Except Malformed (List Identifier) := do
  let isBody := fun c => Identifier.isMember c || c == '.'
  let ids ← (Text.splitAll '.' (cs.takeWhile isBody)).mapM Identifier.ofChars
  -- a character that ends them is an error only where they are none themselves
  match cs.dropWhile isBody with
  | [] => .ok ids
  | c :: _ => .error (.unexpectedAfter .prerelease c)

/-- Reads a version without build metadata. -/
def ofChars (cs : List Char) : Except Malformed Core := do
  if cs.isEmpty then throw .empty
  let (major, cs) ← readNumber .major cs
  let cs ← readDot .major cs
  let (minor, cs) ← readNumber .minor cs
  let cs ← readDot .minor cs
  let (patch, cs) ← readNumber .patch cs
  match cs with
  | [] => return ⟨major, minor, patch, []⟩
  | '-' :: cs => return ⟨major, minor, patch, ← readPrerelease cs⟩
  | c :: _ => throw (.unexpectedAfter .patch c)

def parse (s : String) : Except Malformed Core := ofChars s.toList

/-- The prerelease as written, empty for a stable version. -/
def prereleaseText (v : Core) : String :=
  String.intercalate "." (v.prerelease.map Identifier.text)

def text (v : Core) : String :=
  let numbers := s!"{v.major}.{v.minor}.{v.patch}"
  if v.prerelease.isEmpty then numbers else numbers ++ "-" ++ v.prereleaseText

def identifiersPrecedence : List Identifier → List Identifier → Ordering
  | [], [] => .eq
  | [], _ :: _ => .lt
  | _ :: _, [] => .gt
  | a :: as, b :: bs => (a.precedence b).then (identifiersPrecedence as bs)

def prereleasePrecedence : List Identifier → List Identifier → Ordering
  | [], [] => .eq
  | [], _ :: _ => .gt
  | _ :: _, [] => .lt
  | as, bs => identifiersPrecedence as bs

/-- Precedence of versions: the numbers in turn, then the prerelease. -/
def precedence (v w : Core) : Ordering :=
  (compare v.major w.major).then <| (compare v.minor w.minor).then <|
    (compare v.patch w.patch).then <| prereleasePrecedence v.prerelease w.prerelease

end Core

end ReleaseHistory.Version
