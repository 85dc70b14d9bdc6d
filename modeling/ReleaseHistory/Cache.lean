import ReleaseHistory.Action.Wire
import ReleaseHistory.Build
import ReleaseHistory.BuildSettings
import ReleaseHistory.Path

/-!
# Caches

A cache keeps one built repository for each name, together with the hash of what it was built from
and its definition. A repository is built again when it is asked for with another hash than the one
that is kept. What was built or found once is not looked at again in the same session.
-/

namespace ReleaseHistory

/-! ### Entries -/

/-- What is kept beside a built repository. -/
structure CacheEntry where
  hash : String
  definition : Definition

namespace CacheEntry

open Json.Decode

def toJson (e : CacheEntry) : Json :=
  .object [("build_spec_hash", .string e.hash), ("build_definition", e.definition.toJson)]

def decode : Json.Decoder CacheEntry := fun levels j => do
  match ← record ["build_spec_hash", "build_definition"] levels j with
  | ([hash, definition], levels) =>
    return ⟨← required string levels hash, ← required Definition.decode levels definition⟩
  | _ => none

def ofText? (s : String) : Option CacheEntry := do decode Json.defaultLevels (← Json.parse? s)

end CacheEntry

/-! ### Sessions -/

/-- A cache during a session. -/
structure Cache where
  /-- The directory of the cache. -/
  root : String
  /-- The names and hashes of what is known to be built. -/
  built : List (String × String)
  /-- Whether a build broke off without a result. Nothing can be built any more then. -/
  isPoisoned : Bool
  /-- How many builds were begun. -/
  builds : Nat

/-- A cache and the files that it works with. Paths are relative to `base`. -/
structure CacheSession where
  files : FileTree
  base : Location
  cache : Cache

namespace CacheSession

def start (files : FileTree) (base : Location) (root : String) : CacheSession :=
  ⟨files, base, ⟨root, [], false, 0⟩⟩

def onFiles {α : Type} (f : Location → Operation FileTree α) : Operation CacheSession α := do
  let s ← get
  let (result, files) := (f s.base).run s.files
  set { s with files := files }
  match result with
  | .ok a => return a
  | .error e => throw e

def entryPath (c : Cache) (name : String) : String := Path.join c.root name

def dataPath (c : Cache) (name : String) : String := Path.join (entryPath c name) "cache.json"

def repositoryPath (c : Cache) (name : String) : String := Path.join (entryPath c name) "repo"

def entry? (name : String) : Operation CacheSession (Option CacheEntry) := do
  let path := dataPath (← get).cache name
  match ← onFiles fun base => FileTree.readText? base path with
  | none => return none
  | some text =>
    match CacheEntry.ofText? text with
    | some e => return some e
    | none => throw (.cache (.corrupt path))

def isDirectory (path : String) : Operation CacheSession Bool := do
  let s ← get
  return (s.files.find? s.base path).any (·.2.isDirectory)

/-- Builds a repository in a directory and returns its definition, or breaks off without a
result. -/
abbrev Builder := Location → String → Operation FileTree (Option Definition)

def modifyCache (f : Cache → Cache) : Operation CacheSession Unit :=
  modify fun s => { s with cache := f s.cache }

/-- Builds anew what is kept under a name. The result is whether the build came to an end. -/
def rebuild (name hash : String) (build : Builder) : Operation CacheSession Bool := do
  let s ← get
  let entry := entryPath s.cache name
  let repository := repositoryPath s.cache name
  if (s.files.find? s.base entry).isSome then
    if ← isDirectory entry then onFiles fun base => FileTree.remove base entry else throw .file
  let _ ← onFiles fun base => FileTree.createDirectory base repository
  modifyCache fun c => { c with builds := c.builds + 1 }
  -- a builder that breaks off leaves the cache poisoned, one that is refused does not
  match ← onFiles fun base => build base repository with
  | none =>
    modifyCache fun c => { c with isPoisoned := true }
    return false
  | some d =>
    let text := (CacheEntry.mk hash d).toJson.indented
    onFiles fun base => FileTree.writeHere base (dataPath s.cache name) text
    return true

/-- Builds what is kept under a name, unless it was built from the same hash. -/
def buildEntry (name hash : String) (build : Builder) : Operation CacheSession Bool := do
  let repository := repositoryPath (← get).cache name
  match ← entry? name with
  | some e =>
    if e.hash = hash then
      if ← isDirectory repository then return true
    rebuild name hash build
  | none => rebuild name hash build

/-- Makes sure that a name is built from a hash, and copies the repository. The result is whether
the build came to an end. -/
def ensure (name hash : String) (build : Builder) (target : String) :
    Operation CacheSession Bool := do
  let c := (← get).cache
  if c.isPoisoned then throw (.cache .poisoned)
  if !c.built.contains (name, hash) then
    -- what was known of the name is forgotten before it is known whether the build succeeds
    modifyCache fun c => { c with built := c.built.filter (·.1 ≠ name) }
    if !(← buildEntry name hash build) then return false
    modifyCache fun c => { c with built := c.built ++ [(name, hash)] }
  onFiles fun base => FileTree.copyDirectory base (repositoryPath c name) target
  return true

/-! ### Scenarios -/

variable [Pattern.Engine] [Git.Merger]

def scenarioBuilder (s : Scenario) (c : Convention) (settings : BuildSettings) : Builder :=
  fun base path => do
    match Time.Clock.parse settings.start with
    | .error cause => throw (.configuration (.startTime settings.start cause))
    | .ok clock =>
      let (d, _) := s.write (settings.options c) .usual clock
      d.build base path settings.identity
      return some d

/-- The definition that is kept under a name, which must have been built from a hash. -/
def definition (name hash : String) : Operation CacheSession Definition := do
  match ← entry? name with
  | none => throw (.invariant .missingEntry)
  | some e =>
    if e.hash ≠ hash then throw (.invariant (.foreignEntry name e.hash hash))
    return e.definition

/-- Builds a scenario, or finds it built, copies the repository and returns its definition. -/
def buildScenario (s : Scenario) (name : String) (c : Convention) (settings : BuildSettings)
    (target : String) : Operation CacheSession Definition := do
  let hash := s.buildHash c settings
  let _ ← ensure name hash (scenarioBuilder s c settings) target
  definition name hash

end CacheSession

end ReleaseHistory
