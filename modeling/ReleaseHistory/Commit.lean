import ReleaseHistory.Convention

/-!
# Commits of a definition

A commit plan holds a message for each convention that it can be written in. For one convention it
becomes a commit, with the same time and the same place in the changelog.
-/

namespace ReleaseHistory

structure Commit where
  message : String
  datetime : String
  inChangelog : Bool
  deriving DecidableEq, Repr

/-- A commit before its convention is chosen. -/
structure CommitPlan where
  message : Convention → Option String
  datetime : String
  inChangelog : Bool

namespace CommitPlan

def uniform (message datetime : String) (inChangelog : Bool) : CommitPlan :=
  ⟨fun _ => some message, datetime, inChangelog⟩

def each (angular emoji scipy datetime : String) (inChangelog : Bool) : CommitPlan where
  message
    | .angular => some angular
    | .emoji => some emoji
    | .scipy => some scipy
  datetime := datetime
  inChangelog := inChangelog

/-- The commit for a convention, if the plan has a message for it. -/
def resolve? (convention : Convention) (p : CommitPlan) : Option Commit :=
  (p.message convention).map fun message => ⟨message, p.datetime, p.inChangelog⟩

def resolveAll? (convention : Convention) (ps : List CommitPlan) : Option (List Commit) :=
  ps.mapM (resolve? convention)

end CommitPlan

end ReleaseHistory
