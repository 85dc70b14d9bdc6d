import ReleaseHistory.Git.Merge
import ReleaseHistory.Git.RefName

/-!
# Stores

A store is what a repository keeps apart from its files: the history, branches and tags, what is
checked out, and the index, which is the snapshot that was staged or checked out last.
-/

namespace ReleaseHistory.Git

/-- What is checked out. -/
inductive Head
  /-- A branch by its full name; it need not be there yet. -/
  | branch (name : String)
  /-- A commit by the digits of its name. -/
  | detached (hex : String)
  /-- Neither. -/
  | damaged (text : String)
  deriving DecidableEq, Repr

namespace Head

def mark : String := "ref: "

def isHexDigit (c : Char) : Bool :=
  c.isDigit || (0x61 ≤ c.toNat && c.toNat ≤ 0x66) || (0x41 ≤ c.toNat && c.toNat ≤ 0x46)

def text : Head → String
  | .branch name => mark ++ name ++ "\n"
  | .detached hex => hex ++ "\n"
  | .damaged text => text

def ofText (s : String) : Head :=
  match Text.dropStart? mark.toList s.toList with
  | some rest =>
    let name := String.ofList (rest.reverse.dropWhile isSpace).reverse
    if name.isEmpty then .damaged s else .branch name
  | none =>
    let hex := s.toList.take 40
    if hex.length = 40 && hex.all isHexDigit && ((s.toList.drop 40).head?.all isSpace) then
      .detached (Text.lowerAscii (String.ofList hex))
    else .damaged s

end Head

/-- What a repository keeps apart from its files. -/
structure Store where
  history : History
  /-- Branches by their full names, and their tips. -/
  branches : List (String × Nat)
  /-- The tips that branches have had, the present one first. -/
  tips : List (String × List Nat)
  /-- Tags by their full names. -/
  tags : List (String × TagObject)
  head : Head
  index : Snapshot

namespace Store

/-- An empty store, in which a branch is checked out that is not there yet. -/
def new (branch : String) : Store := ⟨.empty, [], [], [], .branch (RefName.headsPlace ++ branch), []⟩

def commitOf? (s : Store) (name : String) : Option Nat :=
  match s.branches.lookup name with
  | some n => some n
  | none => (s.tags.lookup name).map (·.target)

def tip? (s : Store) (branch : String) : Option Nat :=
  (RefName.branch? branch).bind fun name => s.branches.lookup name

/-- The commit that is checked out; none before the first. -/
def headCommit (s : Store) : Except Fault (Option Nat) :=
  match s.head with
  | .branch name => .ok (s.commitOf? name)
  | .detached hex =>
    match s.history.find? hex with
    | some n => .ok (some n)
    | none => .error .store
  | .damaged _ => .error .store

/-- The snapshot that is checked out; empty before the first commit. -/
def headSnapshot (s : Store) : Snapshot :=
  match s.headCommit with
  | .ok (some n) => s.history.snapshot n
  | _ => []

def hasRoom (name : String) (names : List String) : Bool :=
  !names.any fun n => n = name || RefName.collide n name

/-- Gives a branch a tip, by its full name. -/
def setTip (s : Store) (name : String) (n : Nat) : Store :=
  -- a tip that it has already is not one more in the row of its tips
  if s.branches.lookup name = some n then s
  else
    let had := (s.tips.lookup name).getD []
    { s with
      branches := (name, n) :: s.branches.filter (·.1 ≠ name)
      tips := (name, n :: had) :: s.tips.filter (·.1 ≠ name) }

def createBranch? (s : Store) (branch : String) (n : Nat) : Option Store :=
  match RefName.branch? branch with
  | none => none
  | some name =>
    if RefName.mayBegin branch && branch ≠ "HEAD" && hasRoom name (s.branches.map (·.1)) then
      some (s.setTip name n)
    else none

def createTag? (s : Store) (t : TagObject) : Option Store :=
  match RefName.tag? t.name with
  | none => none
  | some name =>
    if RefName.mayBegin t.name && hasRoom name (s.tags.map (·.1)) then
      some { s with tags := (name, t) :: s.tags }
    else none

def advance? (s : Store) (n : Nat) : Option Store :=
  match s.head with
  | .branch name =>
    let others := (s.branches.map (·.1)).filter (· ≠ name)
    if hasRoom name others then some (s.setTip name n) else none
  | .detached _ => some { s with head := .detached (hexId (s.history.id n)) }
  | .damaged _ => none

/-- Commits a snapshot. The first parent must be the commit that is checked out. -/
def commit? (s : Store) (c : CommitObject) : Option (String × Store) :=
  let tip := match s.headCommit with
    | .ok t => t
    | .error _ => none
  if c.signature.isStorable && !c.message.toList.contains '\x00' && c.parents.head? = tip then
    let (n, history) := s.history.add c
    ({ s with history := history }.advance? n).map fun t => (hexId (history.id n), t)
  else none

/-- The name of a branch without its place. -/
def branchName (name : String) : String := (name.drop RefName.headsPlace.length).toString

def tagName (name : String) : String := (name.drop RefName.tagsPlace.length).toString

/-- The names of all tags, in order. -/
def tagNames (s : Store) : List String :=
  (s.tags.map fun t => tagName t.1).mergeSort fun a b => a ≤ b

/-! ### Objects -/

/-- The objects that the store holds: those of its history, its tags and its index. -/
def objects (s : Store) : List Encoded :=
  s.history.objects ++
    s.tags.map (fun (_, t) => t.encode (s.history.id t.target)) ++
    s.index.map fun (_, text) => blob text

def sharesObjects (s other : Store) : Bool :=
  let objects := other.objects
  s.objects.any objects.contains

/-! ### One store over another -/

/-- Adds the commits of another history; the results are the numbers of all of them in turn. -/
def addAll (h : History) (other : History) : History × Array Nat :=
  other.commits.foldl (fun (h, numbers) c =>
    let (n, h) := h.add { c with parents := c.parents.map fun p => numbers.getD p 0 }
    (h, numbers.push n)) (h, #[])

/-- Entries of one list, and those of another with names that the first does not have. -/
def unite {α : Type} (a b : List (String × α)) : List (String × α) :=
  a ++ b.filter fun e => !a.any fun f => f.1 = e.1

/-- A store copied over another one. What only the other has remains. -/
def copiedOver (s other : Store) : Store :=
  let (history, numbers) := addAll s.history other.history
  let renumber := fun n => numbers.getD n 0
  { s with
    history := history
    branches := unite s.branches (other.branches.map fun (b, n) => (b, renumber n))
    tips := unite s.tips (other.tips.map fun (b, ns) => (b, ns.map renumber))
    tags := unite s.tags (other.tags.map fun (b, t) => (b, { t with target := renumber t.target })) }

/-! ### Files of a store -/

def headFile : String := "HEAD"

/-- The text of a file of the store, if it is one for what is checked out, a branch or a tag. -/
def file? (s : Store) (path : String) : Option String :=
  if path = headFile then some s.head.text
  else
    match s.branches.lookup path with
    | some n => some (hexId (s.history.id n) ++ "\n")
    | none =>
      (s.tags.lookup path).map fun t => hexId (t.encode (s.history.id t.target)).id ++ "\n"

/-- Changes a file of the store, if it is one for what is checked out or for a branch. -/
def writeFile? (s : Store) (path text : String) : Option Store :=
  if path = headFile then some { s with head := .ofText text }
  else if path.startsWith RefName.headsPlace then
    match Head.ofText text with
    | .detached hex => (s.history.find? hex).map (s.setTip path)
    | _ => none
  else none

end Store

end ReleaseHistory.Git
