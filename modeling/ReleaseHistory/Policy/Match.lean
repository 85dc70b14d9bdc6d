import ReleaseHistory.Pattern.Engine
import ReleaseHistory.Policy.Basic

/-!
# Which policy a branch has

Groups are tried in the order of their names, and a pattern is compiled only when its turn comes: one
that does not compile does no harm behind a group that matches.
-/

namespace ReleaseHistory

variable [Pattern.Engine]

/-- Whether the name of a branch matches; none if the pattern does not compile. -/
def BranchPolicy.matches? (p : BranchPolicy) (branch : String) : Option Bool :=
  (Pattern.Engine.compile? p.pattern).map (· branch)

namespace ReleasePolicy

/-- The first of some groups whose pattern matches, or the pattern that does not compile. -/
def firstMatch (branch : String) :
    List (String × BranchPolicy) → Except String (Option (String × BranchPolicy))
  | [] => .ok none
  | (name, p) :: rest =>
    match p.matches? branch with
    | none => .error p.pattern
    | some true => .ok (some (name, p))
    | some false => firstMatch branch rest

/-- The group that a branch belongs to, with its policy, or the pattern that does not compile. -/
def groupFor (p : ReleasePolicy) (branch : String) :
    Except String (Option (String × BranchPolicy)) :=
  firstMatch branch p.groups

end ReleasePolicy

end ReleaseHistory
