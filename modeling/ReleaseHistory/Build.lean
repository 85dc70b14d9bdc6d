import ReleaseHistory.Definition.Check
import ReleaseHistory.Replay
import ReleaseHistory.WorkTree.Repository

/-!
# Building repositories

A definition is built in a directory by checking it, making a repository there and replaying it. A
definition that does not pass the check leaves the directory as it was.
-/

namespace ReleaseHistory

def Repository.replay [Git.Merger] (d : Definition) (base : Location) (path : String)
    (identity : Git.Identity) : Operation FileTree Unit := do
  let r ← Repository.create base path identity
  let (result, r) := (Replay.run d).run r
  set r.files
  match result with
  | .ok () => return
  | .error e => throw e

def Definition.build [Pattern.Engine] [Git.Merger] (d : Definition) (base : Location)
    (path : String) (identity : Git.Identity) : Operation FileTree Unit := do
  match d.check with
  | .error e => throw e
  | .ok _ => Repository.replay d base path identity

end ReleaseHistory
