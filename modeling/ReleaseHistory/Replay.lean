import ReleaseHistory.Changelog
import ReleaseHistory.ReleaseDocument
import ReleaseHistory.WorkTree.Basic

/-!
# Replaying a definition

A definition is replayed action by action on a work tree. The settings decide how tags are named and
whether the first release is masked; all else is in the work tree.
-/

namespace ReleaseHistory.Replay

def documentFile : String := "release.toml"

def ignoreFile : String := ".gitignore"

def ignoreText : String := "target/\ndist/\n*.log\n"

def changesFile : String := "CHANGES.txt"

def versionFile : String := "VERSION"

def releaseMessage (version : String) : String :=
  s!"{version}\n\nAutomatically generated by repo-fixtures"

/-- What the settings decide about later actions. -/
structure Settings where
  tagFormat : TagFormat
  maskInitialRelease : Bool

def Settings.default : Settings := ⟨.default, false⟩

variable {σ : Type} [WorkTree σ]

def configure (c : Configuration) : Operation σ Settings := do
  let f ← liftExcept (TagFormat.ofOption c.tagPattern)
  let text ← liftExcept (ReleaseDocument.text c f)
  WorkTree.writeText documentFile text
  WorkTree.writeText ignoreFile ignoreText
  return ⟨f, c.maskInitialRelease⟩
where
  /-- A result as an operation. -/
  liftExcept {α : Type} (r : Except Fault α) : Operation σ α := ExceptT.mk (pure r)

def checkout : Checkout → Operation σ Unit
  | .existing branch => WorkTree.checkout branch
  | .create name start => WorkTree.createBranch name start

def merge (m : Merge) : Operation σ Unit :=
  match m.fastForward, m.commit with
  | true, _ => WorkTree.merge m.branch .fastForward
  | false, some c => WorkTree.merge m.branch (.withCommit c)
  | false, none => throw (.merge (.noCommit m.branch))

def addChange (message : String) : Operation σ Unit := do
  let changes := (← WorkTree.readText changesFile).getD ""
  WorkTree.writeText changesFile (changes ++ Text.firstLine message ++ "\n")

def commits : List Commit → Operation σ Unit
  | [] => return ()
  | c :: cs => do
    addChange c.message
    let _ ← WorkTree.commit c.message c.datetime
    commits cs

def changelogs (s : Settings) (version : String) : List ChangelogFile → Operation σ Unit
  | [] => return ()
  | f :: fs => do
    let existing ← WorkTree.readText f.path
    let title := s.tagFormat.name version
    WorkTree.writeText f.path (Changelog.update f.format existing title s.maskInitialRelease)
    changelogs s version fs

def publish (s : Settings) (version time : String) : Operation σ Unit := do
  WorkTree.writeText versionFile (version ++ "\n")
  let _ ← WorkTree.commit (releaseMessage version) time
  let name := s.tagFormat.name version
  WorkTree.tag name name time

mutual

def act (s : Settings) : Action → Operation σ Settings
  | .configure c => configure c
  | .checkout c => do checkout c; return s
  | .merge m => do merge m; return s
  | .commits cs => do commits cs; return s
  | .release version time before => do
    let s ← actAll s before
    publish s version time
    return s
  | .changelogs u => do changelogs s u.version u.files; return s

def actAll (s : Settings) : List Action → Operation σ Settings
  | [] => return s
  | a :: as => do actAll (← act s a) as

end

/-- Replays a definition, checked or not. -/
def run (d : Definition) : Operation σ Unit := do
  let _ ← actAll .default d
  return ()

end ReleaseHistory.Replay
