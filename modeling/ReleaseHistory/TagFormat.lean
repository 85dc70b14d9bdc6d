import ReleaseHistory.Fault
import ReleaseHistory.Text.Blank

/-!
# Names of release tags

A tag format is a pattern with at least one place for the version.
-/

namespace ReleaseHistory

namespace TagFormat

/-- The place in a pattern where the version goes. -/
def placeholder : List Char := ['\x7b', 'v', 'e', 'r', 's', 'i', 'o', 'n', '\x7d']

def holdsPlaceholder : List Char → Bool
  | [] => false
  | c :: cs => (Text.dropStart? placeholder (c :: cs)).isSome || holdsPlaceholder cs

end TagFormat

/-- A pattern for tag names that has a place for the version. -/
structure TagFormat where
  pattern : String
  has_place : TagFormat.holdsPlaceholder pattern.toList = true
  deriving DecidableEq

namespace TagFormat

def default : TagFormat where
  pattern := "v" ++ String.ofList placeholder
  has_place := by decide

def ofPattern? (pattern : String) : Option TagFormat :=
  if h : holdsPlaceholder pattern.toList = true then some ⟨pattern, h⟩ else none

def ofOption (pattern : Option String) : Except Fault TagFormat :=
  match pattern with
  | none => .ok default
  | some p =>
    match ofPattern? p with
    | some f => .ok f
    | none => .error (.configuration (.tagPattern p))

/-- The name of the tag of a version: every place is filled with the version. -/
def name (f : TagFormat) (version : String) : String :=
  String.ofList (Text.replaceAll placeholder version.toList f.pattern.toList)

end TagFormat

end ReleaseHistory
