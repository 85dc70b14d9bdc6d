import ReleaseHistory.Action.Basic
import ReleaseHistory.Json.Decode
import ReleaseHistory.Json.Parser
import ReleaseHistory.Json.Printer
import ReleaseHistory.Toml.Json

/-!
# The wire form of actions

An action is an object with its kind under `action` and its fields under `details`, in any order, or
an array of the two. Writers and readers of each type stand side by side.
-/

namespace ReleaseHistory

open Json (Decoder)
open Json.Decode

/-! ### Parts -/

namespace Commit

def toJson (c : Commit) : Json :=
  .object [("msg", .string c.message), ("datetime", .string c.datetime),
    ("include_in_changelog", .bool c.inChangelog)]

def decode : Decoder Commit := fun levels j => do
  match ← record ["msg", "datetime", "include_in_changelog"] levels j with
  | ([message, datetime, inChangelog], levels) =>
    return ⟨← required string levels message, ← required string levels datetime,
      ← required bool levels inChangelog⟩
  | _ => none

end Commit

namespace Convention

def decode : Decoder Convention := choice (all.map fun c => (c.name, c))

end Convention

namespace BranchPolicy

/-- A policy as JSON; a missing token is left out. -/
def toJson (p : BranchPolicy) : Json :=
  .object ([("match", .string p.pattern), ("prerelease", .bool p.prerelease)] ++
    match p.token with
    | some token => [("prerelease_token", .string token)]
    | none => [])

def decode : Decoder BranchPolicy := fun levels j => do
  match ← record ["match", "prerelease", "prerelease_token"] levels j with
  | ([pattern, prerelease, token], levels) =>
    return ⟨← required string levels pattern, ← required bool levels prerelease,
      ← defaulted (nullable string) none levels token⟩
  | _ => none

end BranchPolicy

namespace ReleasePolicy

def toJson (p : ReleasePolicy) : Json :=
  .object [("branches", .object (p.groups.map fun (name, q) => (name, q.toJson))),
    ("allow_zero_version", .bool p.allowZeroVersion)]

def decode : Decoder ReleasePolicy := fun levels j => do
  match ← record ["branches", "allow_zero_version"] levels j with
  | ([groups, allowZeroVersion], levels) =>
    let groups ← required (members BranchPolicy.decode) levels groups
    return ofList (← required bool levels allowZeroVersion) groups
  | _ => none

end ReleasePolicy

namespace Toml

/-- Reads a table of values with dotted keys; the last value of a key counts. -/
def decodeExtra : Decoder Table := fun levels j =>
  (members Toml.ofJson levels j).map Table.ofList

/-- Values with dotted keys as JSON, in the order of the keys. -/
def extraJson (t : Table) : Json := .object (t.map fun (k, v) => (k, v.toJson))

end Toml

namespace Configuration

def toJson (c : Configuration) : Json :=
  .object [("commit_type", .string c.convention.name), ("hvcs_client_name", .string c.hostClient),
    ("hvcs_domain", .string c.hostDomain),
    ("tag_format_str", match c.tagPattern with | some p => .string p | none => .null),
    ("mask_initial_release", .bool c.maskInitialRelease), ("release", c.release.toJson),
    ("extra_configs", Toml.extraJson c.extra)]

def decode : Decoder Configuration := fun levels j => do
  let names := ["commit_type", "hvcs_client_name", "hvcs_domain", "tag_format_str",
    "mask_initial_release", "release", "extra_configs"]
  match ← record names levels j with
  | ([convention, client, domain, pattern, mask, release, extra], levels) =>
    return {
      convention := ← required Convention.decode levels convention
      hostClient := ← required string levels client
      hostDomain := ← required string levels domain
      tagPattern := ← defaulted (nullable string) none levels pattern
      maskInitialRelease := ← defaulted bool false levels mask
      release := ← required ReleasePolicy.decode levels release
      extra := ← defaulted Toml.decodeExtra [] levels extra }
  | _ => none

end Configuration

namespace Checkout

def toJson : Checkout → Json
  | existing branch => .object [("branch", .string branch)]
  | create name start =>
    .object [("create_branch", .object [("name", .string name), ("start_branch", .string start)])]

def decodeCreate : Decoder Checkout := fun levels j => do
  match ← record ["name", "start_branch"] levels j with
  | ([name, start], levels) =>
    return create (← required string levels name) (← required string levels start)
  | _ => none

/-- Reads a switch to a branch. Its kind shows only in its members, so all of it is read first; then
an existing branch is tried before a new one. -/
def decode : Decoder Checkout := fun levels j => do
  if !j.isReadable levels then none
  match j with
  | .object ms =>
    match (once "branch" ms).join.bind (string 0) with
    | some branch => return existing branch
    | none => decodeCreate j.depth (← (once "create_branch" ms).join)
  | _ => none

end Checkout

namespace Merge

/-- A merge as JSON; a missing merge commit is left out. -/
def toJson (m : Merge) : Json :=
  .object ([("branch_name", .string m.branch), ("fast_forward", .bool m.fastForward)] ++
    match m.commit with
    | some c => [("commit_def", c.toJson)]
    | none => [])

def decode : Decoder Merge := fun levels j => do
  match ← record ["branch_name", "fast_forward", "commit_def"] levels j with
  | ([branch, fastForward, commit], levels) =>
    return ⟨← required string levels branch, ← required bool levels fastForward,
      ← defaulted (nullable Commit.decode) none levels commit⟩
  | _ => none

end Merge

namespace ChangelogFormat

def name : ChangelogFormat → String
  | markdown => "md"
  | restructuredText => "rst"

def decode : Decoder ChangelogFormat :=
  choice [("md", markdown), ("rst", restructuredText)]

end ChangelogFormat

namespace ChangelogUpdate

def fileJson (f : ChangelogFile) : Json :=
  .object [("path", .string f.path), ("format", .string f.format.name)]

def decodeFile : Decoder ChangelogFile := fun levels j => do
  match ← record ["path", "format"] levels j with
  | ([path, format], levels) =>
    return ⟨← required string levels path, ← required ChangelogFormat.decode levels format⟩
  | _ => none

def toJson (u : ChangelogUpdate) : Json :=
  .object [("new_version", .string u.version), ("dest_files", .array (u.files.map fileJson))]

def decode : Decoder ChangelogUpdate := fun levels j => do
  match ← record ["new_version", "dest_files"] levels j with
  | ([version, files], levels) =>
    return ⟨← required string levels version, ← required (list decodeFile) levels files⟩
  | _ => none

end ChangelogUpdate

/-! ### Actions -/

namespace Action

mutual

def toJson : Action → Json
  | configure c => tagged .configure c.toJson
  | checkout c => tagged .checkout c.toJson
  | merge m => tagged .merge m.toJson
  | commits cs => tagged .commits (.object [("commits", .array (cs.map Commit.toJson))])
  | release version datetime before =>
    tagged .release (.object [("version", .string version), ("datetime", .string datetime),
      ("pre_actions", .array (toJsonAll before))])
  | changelogs u => tagged .changelogs u.toJson

def toJsonAll : List Action → List Json
  | [] => []
  | a :: as => toJson a :: toJsonAll as

def tagged (kind : Kind) (details : Json) : Json :=
  .object [("action", .string kind.name), ("details", details)]

end

def decodeKind : Decoder Kind := choice (Kind.all.map fun k => (k.name, k))

/-- The kind and the fields of an action, and the levels left for the fields. -/
def split : Decoder (Kind × Json × Nat) := fun levels j => do
  match levels, j with
  | levels + 1, .array [tag, details] =>
    return (← decodeKind levels tag, details, levels)
  | levels + 1, .object ms =>
    let tag ← (once "action" ms).join
    let details ← (once "details" ms).join
    let kind ← decodeKind levels tag
    match ms.find? fun m => m.1 = "action" || m.1 = "details" with
    | some ("action", _) => return (kind, details, levels)
    -- fields before the kind are read whole before it is known what they are
    | _ => if details.isReadable levels then return (kind, details, details.depth) else none
  | _, _ => none

/-- Reads an action whose releases are nested no deeper than a bound. -/
def decodeWithin : Nat → Decoder Action
  | 0 => fun _ _ => none
  | bound + 1 => fun levels j => do
    let (kind, details, levels) ← split levels j
    match kind with
    | .configure => return configure (← Configuration.decode levels details)
    | .checkout => return checkout (← Checkout.decode levels details)
    | .merge => return merge (← Merge.decode levels details)
    | .commits =>
      match ← record ["commits"] levels details with
      | ([cs], levels) => return commits (← required (list Commit.decode) levels cs)
      | _ => none
    | .release =>
      match ← record ["version", "datetime", "pre_actions"] levels details with
      | ([version, datetime, before], levels) =>
        return release (← required string levels version) (← required string levels datetime)
          (← defaulted (list (decodeWithin bound)) [] levels before)
      | _ => none
    | .changelogs => return changelogs (← ChangelogUpdate.decode levels details)

/-- Reads an action; its depth bounds how deep releases are nested. -/
def decode : Decoder Action := fun levels j => decodeWithin (j.depth + 1) levels j

end Action

namespace Definition

def toJson (d : Definition) : Json := .array (Action.toJsonAll d)

def toText (d : Definition) : String := d.toJson.compact

def decode : Decoder Definition := list Action.decode

/-- Reads a definition from text, which must not be nested too deep. -/
def ofText? (s : String) : Option Definition := do decode Json.defaultLevels (← Json.parse? s)

def ofJson? (j : Json) : Option Definition := decode j.depth j

end Definition

end ReleaseHistory
