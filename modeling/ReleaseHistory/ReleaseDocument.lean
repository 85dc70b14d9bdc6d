import ReleaseHistory.TagFormat
import ReleaseHistory.Toml.Printer

/-!
# The release document

The document that configures releases of a repository. It is a table made from the settings, in
which values with dotted keys then take the place of what was made.
-/

namespace ReleaseHistory

namespace Toml.Table

/-- The table under a key, empty if there is something else or nothing. -/
def tableAt (key : String) (t : Table) : Table :=
  match t.get? key with
  | some (.table u) => u
  | _ => []

/-- Gives the key at the end of a path a value. Tables are made on the way where there are none. -/
def insertAt (path : List String) (leaf : String) (v : Toml) (t : Table) : Table :=
  match path with
  | [] => t.insert leaf v
  | part :: parts => t.insert part (.table (insertAt parts leaf v (t.tableAt part)))

/-- Gives a dotted key a value; none if nothing stands after its last dot. -/
def insertDotted? (key : String) (v : Toml) (t : Table) : Option Table :=
  let parts := Text.splitOn '.' key
  match parts.getLast? with
  | none => none
  | some leaf => if leaf.isEmpty then none else some (t.insertAt parts.dropLast leaf v)

end Toml.Table

namespace ReleaseDocument

open Toml (Table)

def policyTable (p : BranchPolicy) : Toml :=
  .table <| Table.ofList <|
    [("match", .string p.pattern), ("prerelease", .boolean p.prerelease)] ++
      match p.token with
      | some token => [("prerelease_token", .string token)]
      | none => []

def baseTable (c : Configuration) (f : TagFormat) : Table :=
  Table.ofList
    [("commit_parser", .string c.convention.name),
      ("tag_format", .string f.pattern),
      ("allow_zero_version", .boolean c.release.allowZeroVersion),
      ("branches", .table (Table.ofList (c.release.groups.map fun (g, p) => (g, policyTable p)))),
      ("remote", .table (Table.ofList
        [("type", .string c.hostClient), ("domain", .string c.hostDomain)])),
      ("changelog", .table [("mask_initial_release", .boolean c.maskInitialRelease)])]

def insertAll (extra : List (String × Toml)) (t : Table) : Except Fault Table :=
  match extra with
  | [] => .ok t
  | (key, v) :: rest =>
    match t.insertDotted? key v with
    | some t => insertAll rest t
    | none => .error (.configuration (.key key))

/-- The table of the settings, with the values that take the place of others. -/
def table (c : Configuration) (f : TagFormat) : Except Fault Table :=
  insertAll c.extra (baseTable c f)

def text (c : Configuration) (f : TagFormat) : Except Fault String :=
  (table c f).map fun t => Toml.write [("semantic_release", .table t)]

end ReleaseDocument

end ReleaseHistory
