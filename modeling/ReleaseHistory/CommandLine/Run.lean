import ReleaseHistory.Cache
import ReleaseHistory.CommandLine.Arguments
import ReleaseHistory.Preferences

/-!
# Running commands

A command works on a file tree. Its outcome is an exit code and what it writes.
-/

namespace ReleaseHistory.CommandLine

variable [Pattern.Engine] [Git.Merger]

/-- What a run leaves behind besides files. -/
structure Outcome where
  code : Nat
  output : String
  errors : String
  deriving DecidableEq, Repr

def Outcome.success (lines : List String) : Outcome := ⟨0, String.join (lines.map (· ++ "\n")), ""⟩

def Outcome.failure (lines : List String) (message : String) : Outcome :=
  ⟨1, String.join (lines.map (· ++ "\n")), message ++ "\n"⟩

def versionLine : String := "repo-fixtures 0.1.0"

def usageLine : String := "Usage: repo-fixtures [OPTIONS] <COMMAND>"

def unknownScenario (name : String) : Outcome := .failure [] s!"Error: Unknown scenario '{name}'"

def listLines (e : Environment) : List String :=
  ["Scenarios:"] ++ (Scenario.all e.sourceText).map (fun s => "  " ++ s.name) ++
    ["Conventions: " ++ String.intercalate ", " (Convention.all.map (·.name))]

def runDefinition (e : Environment) (p : Preferences) (c : Convention) (name : String)
    (tagPattern : Option String) (maskInitialRelease : Bool) : Outcome :=
  match Scenario.find? e.sourceText name with
  | none => unknownScenario name
  | some s =>
    let settings := { p.settings with
      tagPattern := tagPattern, maskInitialRelease := maskInitialRelease }
    match Time.Clock.parse settings.start with
    | .error _ => .failure [] "Error: Invalid reference time"
    | .ok clock =>
      let (d, _) := s.write (settings.options c) .usual clock
      .success [d.toJson.indented]

def repositoryName (scenario : String) (c : Convention) : String :=
  if scenario = Scenario.GitFlow.name then Scenario.repositoryName c else s!"{scenario}_{c.name}"

def runBuild (e : Environment) (p : Preferences) (c : Convention) (target name : String)
    (cache : Option String) : StateM FileTree Outcome := do
  match Scenario.find? e.sourceText name with
  | none => return unknownScenario name
  | some s =>
    let root := cache.getD (p.cachePath e)
    let repository := repositoryName name c
    let begun := s!"→ Building '{repository}' (cache: {root})"
    let session := CacheSession.start (← get) e.workingDirectory root
    let (result, session) :=
      (CacheSession.buildScenario s repository c p.settings target).run session
    set session.files
    match result with
    | .error _ => return .failure [begun] s!"Error: Failed to build '{repository}'"
    | .ok d =>
      return .success ([begun, s!"✓ Repository written to {target}", "",
        s!"Releases in '{repository}':"] ++ d.summary.map fun line => "  " ++ line)

/-- The cache that a command works with, and the name of its repository there. -/
def cacheOf? (e : Environment) (p : Preferences) : Command → Option (Cache × String)
  | .build c _ scenario cache =>
    some (⟨cache.getD (p.cachePath e), [], false, 0⟩, repositoryName scenario c)
  | _ => none

def runCommand (e : Environment) (p : Preferences) : Command → StateM FileTree Outcome
  | .definition c scenario tagPattern mask => return runDefinition e p c scenario tagPattern mask
  | .build c target scenario cache => runBuild e p c target scenario cache
  | .list => return .success (listLines e)

def configurationFailure (f : Fault) : Outcome :=
  .failure [] ("ERROR: Error loading config: " ++ f.message?.getD "I/O error")

def run (e : Environment) (args : List String) : StateM FileTree Outcome := do
  match parse args with
  | none => return ⟨2, "", usageLine ++ "\n"⟩
  | some .version => return .success [versionLine]
  | some .help => return .success [usageLine]
  | some (.run configuration c) =>
    match ← (Preferences.load e configuration).run with
    | .error f => return configurationFailure f
    | .ok p => runCommand e p c

end ReleaseHistory.CommandLine
