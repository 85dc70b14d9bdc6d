import ReleaseHistory.Version.Prerelease

/-!
# Release versions

A release version is a core version and build metadata. The metadata is any text after the first
plus sign, so it may hold the name of a branch.
-/

namespace ReleaseHistory.Version

/-- A core version with its build metadata, kept as written. -/
structure Release where
  core : Core
  build : Option String
  deriving DecidableEq, Repr

namespace Release

def parse (s : String) : Except Fault Release :=
  let (core, build) := Text.splitOnce '+' s
  if build = some "" then .error (.emptyBuild s core)
  else
    match Core.parse core with
    | .ok v => .ok ⟨v, build⟩
    | .error e => .error (.malformed s e)

def text (v : Release) : String :=
  match v.build with
  | none => v.core.text
  | some build => v.core.text ++ "+" ++ build

def isPrerelease (v : Release) : Bool := !v.core.prerelease.isEmpty

/-- The prerelease as channel and iteration; a version can have one that is not of this form. -/
def prerelease (v : Release) : Except Fault (Option Prerelease) :=
  if v.core.prerelease.isEmpty then .ok none
  else (Prerelease.parse v.core.prereleaseText).map some

/-- The channel that the version belongs to, none for stable versions. -/
def channel (v : Release) : Except Fault (Option String) :=
  v.prerelease.map fun p => p.map (·.token)

/-- Precedence, in which build metadata has no part. -/
def precedence (v w : Release) : Ordering := v.core.precedence w.core

/-- Versions in ascending precedence; those of equal precedence keep their order. -/
def sort (vs : List Release) : List Release :=
  vs.mergeSort fun v w => v.precedence w != .gt

end Release

end ReleaseHistory.Version
