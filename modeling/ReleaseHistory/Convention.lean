import ReleaseHistory.Text.Blank

/-!
# Commit conventions

The three ways of writing a commit message that a release tool reads, in their stable order.
-/

namespace ReleaseHistory

/-- How the subject line of a commit says what kind of change it holds. -/
inductive Convention
  /-- `type(scope): description` -/
  | angular
  /-- `:emoji: description` -/
  | emoji
  /-- `TAG(scope): description` -/
  | scipy
  deriving DecidableEq, Repr

namespace Convention

def all : List Convention := [angular, emoji, scipy]

def name : Convention → String
  | angular => "angular"
  | emoji => "emoji"
  | scipy => "scipy"

/-- The convention that has exactly this name. -/
def ofName? (s : String) : Option Convention :=
  all.find? (·.name = s)

/-- The convention that a person named, in any case and with blanks around it. -/
def parse? (s : String) : Option Convention :=
  ofName? (Text.lowerAscii (Text.trim s))

theorem ofName?_name (c : Convention) : ofName? c.name = some c := by
  cases c <;> decide

end Convention

end ReleaseHistory
