import ReleaseHistory.Text.Blank

/-!
# Names of references

A reference is named by parts with slashes between them. Neither control characters nor the signs
with which revisions are written stand in it.
-/

namespace ReleaseHistory.Git.RefName

def headsPlace : String := "refs/heads/"

def tagsPlace : String := "refs/tags/"

def isMember (c : Char) : Bool := 32 < c.toNat && !"~^:\\?[*".toList.contains c

def hasPair (a b : Char) : List Char → Bool
  | c :: d :: rest => (c = a && d = b) || hasPair a b (d :: rest)
  | _ => false

def isPart (cs : List Char) : Bool :=
  cs.head? ≠ some '.' && cs.all isMember && !hasPair '.' '.' cs && !hasPair '@' '\x7b' cs &&
    !(".lock".toList.isSuffixOf cs)

/-- The name of a reference with repeated slashes made single, if it is one. The last character is
neither a dot nor a slash. -/
def normalize? (name : String) : Option String :=
  let parts := Text.splitAll '/' name.toList
  let kept := parts.filter (!·.isEmpty)
  let last := name.toList.getLast?
  if parts.all isPart && !kept.isEmpty && last ≠ some '.' && last ≠ some '/' then
    some (String.intercalate "/" (kept.map String.ofList))
  else none

/-- Whether a name is well formed as it stands, without repeated slashes. -/
def isStrict (name : String) : Bool := normalize? name = some name

/-- A name below a place. Slashes at its front do not count. -/
def below (place name : String) : String :=
  place ++ String.ofList (name.toList.dropWhile (· = '/'))

/-- The full name of a branch, if it can be one. -/
def branch? (name : String) : Option String := normalize? (below headsPlace name)

def tag? (name : String) : Option String := normalize? (below tagsPlace name)

/-- Whether a new branch or tag may begin so; a hyphen would be taken for an option. -/
def mayBegin (name : String) : Bool := !name.startsWith "-"

def isAbove (a b : String) : Bool := b.startsWith (a ++ "/")

/-- Whether two names cannot be references at the same time. -/
def collide (a b : String) : Bool := isAbove a b || isAbove b a

/-- A name without the place of branches at its front, however often it stands there. -/
def shorten (name : String) : String :=
  String.ofList (go name.length name.toList)
where
  /-- Drops the place at most `fuel` times. -/
  go : Nat → List Char → List Char
    | 0, cs => cs
    | fuel + 1, cs =>
      match Text.dropStart? headsPlace.toList cs with
      | some rest => go fuel rest
      | none => cs

end ReleaseHistory.Git.RefName
