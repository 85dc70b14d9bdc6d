/-!
# Release policies

A policy says which kind of release the branches of a group may have. A branch belongs to the first
group, in the order of their names, whose pattern matches the name of the branch.
-/

namespace ReleaseHistory

/-- What branches whose names match a pattern may release. -/
structure BranchPolicy where
  pattern : String
  prerelease : Bool
  token : Option String
  deriving DecidableEq, Repr

/-- The channel that releases of the group belong to, none for stable releases. -/
def BranchPolicy.channel (p : BranchPolicy) : Option String :=
  if p.prerelease then p.token else none

/-- Policies by the name of their group, in the order of the names. -/
structure ReleasePolicy where
  groups : List (String × BranchPolicy)
  allowZeroVersion : Bool
  deriving DecidableEq, Repr

namespace ReleasePolicy

/-- Gives a group a policy, in place of an earlier one. -/
def insertGroup (name : String) (p : BranchPolicy) :
    List (String × BranchPolicy) → List (String × BranchPolicy)
  | [] => [(name, p)]
  | (other, q) :: rest =>
    if name = other then (name, p) :: rest
    else if name < other then (name, p) :: (other, q) :: rest
    else (other, q) :: insertGroup name p rest

/-- Groups from names and policies; the last policy of a name counts. -/
def ofList (allowZeroVersion : Bool) (groups : List (String × BranchPolicy)) : ReleasePolicy :=
  ⟨groups.foldl (fun gs (name, p) => insertGroup name p gs) [], allowZeroVersion⟩

/-- The policy where none is given: stable releases from `main`. -/
def default : ReleasePolicy := ofList false [("main", ⟨"^main$", false, none⟩)]

end ReleasePolicy

end ReleaseHistory
