import ReleaseHistory.Fault

/-!
# Signatures

A signature says who made a commit or a tag, and when. Names and addresses are trimmed of
punctuation that would be confused with the form in which a signature is stored. The time is stored
as an unsigned number of 32 bits.
-/

namespace ReleaseHistory.Git

structure Identity where
  name : String
  email : String
  deriving DecidableEq, Repr

/-- The identity where none is configured. -/
def Identity.default : Identity := ⟨"semantic-release", "semantic-release@example.com"⟩

/-- A name, an address and a time, as they are stored. -/
structure Signature where
  name : String
  email : String
  /-- Seconds since 1970. -/
  seconds : Int
  /-- Minutes east of Greenwich. -/
  offset : Int
  deriving DecidableEq, Repr

namespace Signature

/-- Characters that do not stand at the ends of a name or an address. -/
def isCrud (c : Char) : Bool := c.toNat ≤ 32 || ".,:;<>\x22\\\x27".toList.contains c

def trim (s : String) : String :=
  String.ofList ((s.toList.dropWhile isCrud).reverse.dropWhile isCrud).reverse

/-- Whether a name or an address can be used: it has no angle brackets and no zero byte, and
something is left of it. -/
def isUsable (s : String) : Bool :=
  !s.toList.any (fun c => c = '<' || c = '>' || c = '\x00') && !(trim s).isEmpty

def make (i : Identity) (t : Time.Timestamp) : Option Signature :=
  if isUsable i.name && isUsable i.email then
    some ⟨trim i.name, trim i.email, t.seconds, t.offset / 60⟩
  else none

/-- Whether a signature can be stored: a line feed would end its line too soon. -/
def isStorable (s : Signature) : Bool := !s.name.toList.contains '\n' && !s.email.toList.contains '\n'

def storedSeconds (s : Signature) : Nat := (s.seconds % 0x100000000).toNat

/-- The offset as it is read back: hours beyond fourteen are no offset. -/
def storedOffset (s : Signature) : Int := if 14 < s.offset.natAbs / 60 then 0 else s.offset

def text (s : Signature) : String :=
  let sign := if s.offset < 0 then "-" else "+"
  let minutes := s.offset.natAbs
  s!"{s.name} <{s.email}> {s.storedSeconds} {sign}" ++ Text.padded 2 (minutes / 60) ++
    Text.padded 2 (minutes % 60)

end Signature

end ReleaseHistory.Git
