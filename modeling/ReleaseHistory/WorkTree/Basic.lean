import ReleaseHistory.Fault

/-!
# Work trees

A work tree is whatever a definition can be replayed on: it has branches, one of them checked out,
files and tags. An operation that is refused says why, and leaves the work tree as it has become.
-/

namespace ReleaseHistory

inductive MergeMode
  /-- Moves the current branch, which must be behind. -/
  | fastForward
  /-- Adds a merge commit. -/
  | withCommit (c : Commit)
  deriving DecidableEq, Repr

/-- What a definition needs from a work tree. Paths are relative to its root. -/
class WorkTree (σ : Type) where
  /-- The branch that is checked out, also before its first commit. -/
  currentBranch : Operation σ String
  branchExists (name : String) : Operation σ Bool
  /-- Creates a branch at the tip of another and checks it out. -/
  createBranch (name start : String) : Operation σ Unit
  checkout (name : String) : Operation σ Unit
  readText (path : String) : Operation σ (Option String)
  writeText (path text : String) : Operation σ Unit
  /-- Commits every change and returns the identifier of the commit. -/
  commit (message time : String) : Operation σ String
  merge (branch : String) (mode : MergeMode) : Operation σ Unit
  /-- Tags the commit that is checked out. -/
  tag (name message time : String) : Operation σ Unit
  /-- The names of all tags, in order. -/
  tags : Operation σ (List String)
  /-- The summaries of the commits of a branch, oldest first. -/
  log (branch : String) : Operation σ (List String)

end ReleaseHistory
