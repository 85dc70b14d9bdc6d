import ReleaseHistory.Git.Object

/-!
# Histories

A history is a list of commits in which parents come before their children, so that a commit is
named by its number. The same commit is never there twice. From it follow which commits are
ancestors of which, where two lines of history meet, and the order of a log.
-/

namespace ReleaseHistory.Git

/-- Commits, parents first, and their names. -/
structure History where
  commits : Array CommitObject
  ids : Array ObjectId

namespace History

def empty : History := ⟨#[], #[]⟩

def get? (h : History) (n : Nat) : Option CommitObject := h.commits[n]?

def parents (h : History) (n : Nat) : List Nat :=
  match h.get? n with
  | some c => c.parents
  | none => []

def snapshot (h : History) (n : Nat) : Snapshot :=
  match h.get? n with
  | some c => c.snapshot
  | none => []

def summary (h : History) (n : Nat) : String :=
  match h.get? n with
  | some c => Git.summary c.message
  | none => ""

def time (h : History) (n : Nat) : Nat :=
  match h.get? n with
  | some c => c.signature.storedSeconds
  | none => 0

def id (h : History) (n : Nat) : ObjectId := h.ids.getD n []

def find? (h : History) (hex : String) : Option Nat :=
  h.ids.toList.findIdx? fun i => hexId i = hex

/-- Adds a commit, unless it is there already, and returns its number. -/
def add (h : History) (c : CommitObject) : Nat × History :=
  let i := (c.encode (c.parents.map h.id)).id
  match h.ids.toList.findIdx? (· = i) with
  | some n => (n, h)
  | none => (h.commits.size, ⟨h.commits.push c, h.ids.push i⟩)

def objects (h : History) : List Encoded :=
  h.commits.toList.flatMap fun c => c.encode (c.parents.map h.id) :: c.snapshot.objects

/-! ### Ancestry -/

/-- Adds all ancestors to a list of commits, going through the commits below `n` from the last to
the first. -/
def close (h : History) : Nat → List Nat → List Nat
  | 0, marked => marked
  | n + 1, marked =>
    if marked.contains n then
      close h n (marked ++ (h.parents n).eraseDups.filter fun p => !marked.contains p)
    else close h n marked

def reachable (h : History) (n : Nat) : List Nat := h.close h.commits.size [n]

def isAncestor (h : History) (a b : Nat) : Bool := a ≠ b && (h.reachable b).contains a

/-- Where a line of history meets any of some others: the common ancestors that are not ancestors
of another, the latest first. -/
def mergeBases (h : History) (a : Nat) (others : List Nat) : List Nat :=
  let ancestors := others.flatMap h.reachable
  let common := (h.reachable a).eraseDups.filter ancestors.contains
  let best := common.filter fun c => !common.any fun d => h.isAncestor c d
  best.mergeSort fun c d => h.time d < h.time c || (h.time c = h.time d && d ≤ c)

/-! ### The order of a log -/

/-- Commits that wait for their turn, in a binary heap with the latest at its top. -/
abbrev Waiting := Array Nat

/-- Whether the first commit must give way to the second, which is later. -/
def givesWay (h : History) (a b : Nat) : Bool := h.time a < h.time b

def siftUp (h : History) : Nat → Waiting → Nat → Waiting
  | 0, w, _ => w
  | fuel + 1, w, i =>
    if i = 0 then w
    else
      let above := (i - 1) / 2
      if h.givesWay (w.getD above 0) (w.getD i 0) then
        siftUp h fuel (w.swapIfInBounds above i) above
      else w

/-- Moves the commit at a place down while one of those below is later. -/
def siftDown (h : History) : Nat → Waiting → Nat → Waiting
  | 0, w, _ => w
  | fuel + 1, w, i =>
    match w[2 * i + 1]? with
    | none => w
    | some left =>
      let below :=
        match w[2 * i + 2]? with
        | some right => if h.givesWay left right then 2 * i + 2 else 2 * i + 1
        | none => 2 * i + 1
      if h.givesWay (w.getD i 0) (w.getD below 0) then
        siftDown h fuel (w.swapIfInBounds i below) below
      else w

def enqueue (h : History) (w : Waiting) (n : Nat) : Waiting := h.siftUp w.size (w.push n) w.size

def dequeue? (h : History) (w : Waiting) : Option (Nat × Waiting) :=
  match w[0]? with
  | none => none
  | some top =>
    let last := w.getD (w.size - 1) 0
    let rest := w.pop
    if rest.isEmpty then some (top, rest)
    else some (top, h.siftDown rest.size (rest.setIfInBounds 0 last) 0)

/-- How many of some commits have a commit as a parent; one that has it twice counts twice. -/
def childCount (h : History) (members : List Nat) (n : Nat) : Nat :=
  members.foldl (fun total m => total + (h.parents m).count n) 0

/-- Takes commits off the waiting ones and lets a parent wait when all its children are out.
`pending` holds the number of children of each commit that are not out yet. -/
def walk (h : History) : Nat → Waiting → (Nat → Nat) → List Nat
  | 0, _, _ => []
  | fuel + 1, w, pending =>
    match h.dequeue? w with
    | none => []
    | some (n, w) =>
      let visit := fun (state : Waiting × (Nat → Nat)) (p : Nat) =>
        let (w, pending) := state
        let left := pending p - 1
        (if left = 0 then h.enqueue w p else w, fun q => if q = p then left else pending q)
      let (w, pending) := (h.parents n).foldl visit (w, pending)
      n :: walk h fuel w pending

/-- The commits that can be reached from a tip, children before parents and otherwise the latest
first. -/
def logOrder (h : History) (tip : Nat) : List Nat :=
  let members := h.reachable tip
  let counts := members.map fun m => (m, h.childCount members m)
  h.walk members.length #[tip] fun n => (counts.lookup n).getD 0

/-- The summaries of the commits that can be reached from a tip, parents before children. -/
def log (h : History) (tip : Nat) : List String := ((h.logOrder tip).map h.summary).reverse

end History

end ReleaseHistory.Git
