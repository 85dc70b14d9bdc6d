import ReleaseHistory.BuildSettings
import ReleaseHistory.FileTree
import ReleaseHistory.Path
import ReleaseHistory.Toml.Parser

/-!
# Preferences

A configuration file says who commits, when the first commit is made and where repositories are
cached. It is looked for in the working directory and then in the directory for configuration; what
it does not say has a default.
-/

namespace ReleaseHistory

/-- Where a program runs. -/
structure Environment where
  /-- The directory that relative paths begin at. -/
  workingDirectory : Location
  /-- The directory of configuration files. -/
  configurations : String
  /-- The directory of caches. -/
  caches : String
  /-- The texts that scenarios are hashed by, under their names. -/
  sourceText : String → String

/-- What a configuration file says. -/
structure Preferences where
  identity : Git.Identity
  start : String
  cacheDirectory : Option String
  deriving DecidableEq, Repr

namespace Preferences

def default : Preferences := ⟨.default, Time.Clock.defaultStart, none⟩

/-! ### Reading -/

/-- The fields of a section, by name or by position. One that is not there is `none` in the list; a
section that is not there has no fields. -/
def fields (names : List String) : Option Toml.Item → Option (List (Option Toml.Item))
  | none => some (names.map fun _ => none)
  | some (.table _ es) => some (names.map fun n => es.lookup n)
  | some (.array items) => some ((List.range names.length).map fun i => items[i]?)
  | some (.tables items) => some ((List.range names.length).map fun i => items[i]?)
  | some _ => none

def textOr (default : String) : Option Toml.Item → Option String
  | none => some default
  | some (.string s) => some s
  | some _ => none

def optionalText : Option Toml.Item → Option (Option String)
  | none => some none
  | some (.string s) => some (some s)
  | some _ => none

def ofEntries? (es : Toml.Entries) : Option Preferences := do
  match ← fields ["author_name", "author_email"] (es.lookup "git"),
      ← fields ["stable_now"] (es.lookup "clock"), ← fields ["dir"] (es.lookup "cache") with
  | [name, email], [start], [dir] =>
    return ⟨⟨← textOr default.identity.name name, ← textOr default.identity.email email⟩,
      ← textOr default.start start, ← optionalText dir⟩
  | _, _, _ => none

/-- Refuses preferences with which nothing can be built. -/
def validate (p : Preferences) : Except Fault Preferences :=
  match Time.Timestamp.parse p.start with
  | .error cause => .error (.configuration (.clockStart p.start cause))
  | .ok _ =>
    if (Text.trim p.identity.name).isEmpty || (Text.trim p.identity.email).isEmpty then
      .error (.configuration .emptyIdentity)
    else .ok p

def ofText (s : String) : Except Fault Preferences :=
  match (Toml.Parser.parse? s).bind ofEntries? with
  | some p => p.validate
  | none => .error (.configuration .malformed)

/-! ### Files -/

def fileName : String := "repo-fixtures.toml"

/-- The configuration files that are looked for, in this order. -/
def candidates (e : Environment) : Option String → List String
  | some path => [path]
  | none => [fileName, Path.join e.configurations fileName]

/-- The text of the configuration file: of a given one, or of the first that is there. -/
def load? (e : Environment) : Option String → Operation FileTree (Option String)
  | some path =>
    tryCatch (do return some (← FileTree.readText e.workingDirectory path))
      fun _ => throw (.configuration (.unreadable path))
  | none => do
    match ← FileTree.readText? e.workingDirectory fileName with
    | some s => return some s
    | none => FileTree.readText? e.workingDirectory (Path.join e.configurations fileName)

def load (e : Environment) (path : Option String) : Operation FileTree Preferences := do
  match ← load? e path with
  | none => return default
  | some s =>
    match ofText s with
    | .ok p => return p
    | .error f => throw f

def cachePath (p : Preferences) (e : Environment) : String :=
  p.cacheDirectory.getD (Path.join e.caches "repo-fixtures")

def settings (p : Preferences) : BuildSettings :=
  { BuildSettings.default with identity := p.identity, start := p.start }

end Preferences

end ReleaseHistory
