import ReleaseHistory.Definition.Check
import ReleaseHistory.Path
import ReleaseHistory.WorkTree.Basic

/-!
# Recorders

A recorder is a work tree without a repository. The history of a branch is the list of the summaries
of its commits, and every operation that changes something is written down.
-/

namespace ReleaseHistory

/-- A work tree that remembers summaries only. -/
structure Recorder where
  current : String
  /-- The history of each branch, newest entry last. -/
  branches : List (String × List String)
  files : List (List Path.Part × String)
  /-- Tags in the order in which they were made. -/
  tags : List String
  operations : List String
  deriving DecidableEq

namespace Recorder

def put {α β : Type} [DecidableEq α] (key : α) (value : β) : List (α × β) → List (α × β)
  | [] => [(key, value)]
  | (k, v) :: rest => if k = key then (key, value) :: rest else (k, v) :: put key value rest

def new : Recorder := ⟨mainBranch, [], [], [], []⟩

def history? (r : Recorder) (branch : String) : Option (List String) := r.branches.lookup branch

def file? (r : Recorder) (path : String) : Option String := r.files.lookup (Path.parts path)

def history (branch : String) : Operation Recorder (List String) := do
  match (← get).history? branch with
  | some h => return h
  | none => throw (.configuration (.recordedBranch branch))

def record (operation : String) : Operation Recorder Unit :=
  modify fun r => { r with operations := r.operations ++ [operation] }

def setHistory (branch : String) (h : List String) : Operation Recorder Unit :=
  modify fun r => { r with branches := put branch h r.branches }

def checkout (name : String) : Operation Recorder Unit := do
  let _ ← history name
  modify fun r => { r with current := name }
  record s!"checkout {name}"

/-- Creates a branch, or gives one that is there the history of its start. -/
def createBranch (name start : String) : Operation Recorder Unit := do
  let h ← history start
  setHistory name h
  record s!"branch {name} from {start}"
  checkout name

/-- Commits on the current branch. The identifier counts the entries of its history. -/
def commit (message : String) : Operation Recorder String := do
  let r ← get
  let summary := Text.firstLine message
  let h := (r.history? r.current).getD [] ++ [summary]
  setHistory r.current h
  record s!"commit {r.current}: {summary}"
  return s!"mock-{h.length}"

def merge (branch : String) (mode : MergeMode) : Operation Recorder Unit := do
  let source ← history branch
  let current := (← get).current
  let target ← history current
  match mode with
  | .fastForward =>
    if target.isPrefixOf source then
      record s!"fast-forward {current} to {branch}"
      setHistory current source
    else throw (.merge (.behind current branch))
  | .withCommit c =>
    record s!"merge {branch} into {current}"
    -- entries are told apart by their summaries, so a new one with a known summary is left out
    setHistory current (target ++ source.filter (fun s => !target.contains s) ++ [c.message])

def tag (name : String) : Operation Recorder Unit := do
  if (← get).tags.contains name then throw (.configuration (.recordedTag name))
  modify fun r => { r with tags := r.tags ++ [name] }
  record s!"tag {name}"

def sortedTags (r : Recorder) : List String := r.tags.mergeSort fun a b => a ≤ b

end Recorder

instance : WorkTree Recorder where
  currentBranch := do return (← get).current
  branchExists name := do return ((← get).history? name).isSome
  createBranch := Recorder.createBranch
  checkout := Recorder.checkout
  readText path := do return (← get).file? path
  writeText path text :=
    modify fun r => { r with files := Recorder.put (Path.parts path) text r.files }
  commit message _ := Recorder.commit message
  merge := Recorder.merge
  tag name _ _ := Recorder.tag name
  tags := do return (← get).sortedTags
  log := Recorder.history

end ReleaseHistory
