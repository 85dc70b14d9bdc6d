import ReleaseHistory.Git.History
import ReleaseHistory.Text.Merge

/-!
# Merging snapshots

Two snapshots that come from a common base are merged path by path. Where the lines of a history
meet at several commits, these are merged first, with their conflicts left in the texts, and the
result is the base.
-/

namespace ReleaseHistory.Git

/-- What a path holds in the base and on both sides. -/
structure Contest where
  path : String
  base : Option String
  ours : Option String
  theirs : Option String
  deriving DecidableEq

namespace Contest

def isWritten (c : Contest) : Bool :=
  (c.ours.isSome && c.ours ≠ c.base) || (c.theirs.isSome && c.theirs ≠ c.base)

/-- Whether a text cannot be merged: it has a zero byte near its beginning. -/
def isBinary (text : String) : Bool := (text.toUTF8.toList.take 8000).contains 0

/-- What a path holds after a merge. -/
inductive Outcome
  | settled (text : Option String)
  /-- A conflict, and a text with both sides in it if there can be one. -/
  | contested (text : Option String)
  deriving DecidableEq

def mergeTexts (base ours theirs : String) : Outcome :=
  if isBinary base || isBinary ours || isBinary theirs then .contested (some "")
  else
    let m := Text.Merge.merge base ours theirs
    if m.isClean then .settled (some m.text) else .contested (some m.text)

/-- What a path holds after a merge, if it is not a directory on the other side. -/
def resolve (c : Contest) : Outcome :=
  if c.ours = c.theirs || c.theirs = c.base then .settled c.ours
  else if c.ours = c.base then .settled c.theirs
  else
    match c.ours, c.theirs with
    | some ours, some theirs => mergeTexts (c.base.getD "") ours theirs
    | _, _ => .contested none

end Contest

namespace Snapshot

def pathsOf (snapshots : List Snapshot) : List String :=
  (ofList (snapshots.flatMap fun s => s.map fun (p, _) => (p, ""))).map (·.1)

/-- The paths whose texts are not all the same. -/
def contests (base ours theirs : Snapshot) : List Contest :=
  (pathsOf [base, ours, theirs]).filterMap fun p =>
    let c : Contest := ⟨p, base.get? p, ours.get? p, theirs.get? p⟩
    if c.base = c.ours && c.ours = c.theirs then none else some c

def isAbove (path below : String) : Bool := below.startsWith (path ++ "/")

/-- The paths that one side writes and of which the other makes a directory. -/
def writtenDirectories : List Contest → List String
  | a :: b :: rest =>
    if isAbove a.path b.path && a.isWritten && b.isWritten then
      a.path :: writtenDirectories (b :: rest)
    else writtenDirectories (b :: rest)
  | _ => []

/-- A snapshot without the paths that are directories in it. -/
def dropDirectories (s : Snapshot) : Snapshot :=
  s.filter fun (p, _) => !s.any fun (q, _) => isAbove p q

structure Merged where
  snapshot : Snapshot
  conflicts : List String
  deriving DecidableEq

/-- Merges two snapshots. -/
def merge (base ours theirs : Snapshot) : Merged :=
  let cs := contests base ours theirs
  let directories := writtenDirectories cs
  let same := ours.filter fun (p, _) => !cs.any (·.path = p)
  let outcomes := cs.map fun c =>
    (c.path, if directories.contains c.path then .contested none else c.resolve)
  let write := fun (s : Snapshot) (p : String) => fun
    | some text => s.insert p text
    | none => s
  let snapshot := outcomes.foldl (fun s (p, o) => match o with
    | .settled text => write s p text
    -- in a conflict the text with both sides in it stays
    | .contested text => write s p text) same
  ⟨dropDirectories snapshot, outcomes.filterMap fun (p, o) => match o with
    | .settled _ => none
    | .contested _ => some p⟩

end Snapshot

namespace History

/-- The base of a merge, given as a snapshot. Each side is given by its commits: one, or those that
were merged to make it. `fuel` bounds how often bases have several bases themselves. -/
def baseOf (h : History) : Nat → List Nat → List Nat → Snapshot
  | 0, _, _ => []
  | fuel + 1, ours, theirs =>
    match ours with
    | [] => []
    | first :: others =>
      match h.mergeBases first (others ++ theirs) with
      | [] => []
      | b :: bs =>
        let merge := fun (state : List Nat × Snapshot) (c : Nat) =>
          let (heads, s) := state
          (heads ++ [c], (Snapshot.merge (baseOf h fuel heads [c]) s (h.snapshot c)).snapshot)
        (bs.foldl merge ([b], h.snapshot b)).2

def merge (h : History) (ours theirs : Nat) : Snapshot.Merged :=
  Snapshot.merge (h.baseOf (h.commits.size + 1) [ours] [theirs]) (h.snapshot ours)
    (h.snapshot theirs)

end History

end ReleaseHistory.Git
