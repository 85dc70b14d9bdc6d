import ReleaseHistory.FileTree

/-!
# Mergers

How the files of two commits are put together is up to the library that merges them. It may follow
files that were moved, and treat the texts at a path as attributes in the work tree say.
-/

namespace ReleaseHistory.Git

/-- A merger puts the files of two commits of a store together. The files and the root of the work
tree are given for the attributes that may stand there. -/
class Merger where
  merge : FileTree → Location → Store → Nat → Nat → Snapshot.Merged

/-- The merger of programs that are run here. To it a file that was moved is one that is gone and one
that is new, and all paths are alike. -/
@[reducible] def Merger.builtIn : Merger where
  merge _ _ s ours theirs := s.history.merge ours theirs

end ReleaseHistory.Git
