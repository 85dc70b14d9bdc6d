import ReleaseHistory.Git.Ignore
import ReleaseHistory.Git.Merger
import ReleaseHistory.Git.Revision
import ReleaseHistory.WorkTree.Basic

/-!
# Repositories

A repository is a work tree with a store. Checking out writes the files of a snapshot and takes away
those of the snapshot before; files that were never staged remain. A commit stages all files but
those that are ignored.
-/

namespace ReleaseHistory

/-- A repository in a file tree, and who commits in it. -/
structure Repository where
  files : FileTree
  root : Location
  identity : Git.Identity

namespace Repository

/-! ### The store -/

def storeLocation (root : Location) : Location := root ++ [FileTree.storeName]

/-- The store of the repository at a location, if there is one. -/
def storeAt? (t : FileTree) (root : Location) : Option Git.Store :=
  match t.get? (storeLocation root) with
  | some (.store s) => some s
  | _ => none

def store : Operation Repository Git.Store := do
  let r ← get
  match storeAt? r.files r.root with
  | some s => return s
  | none => throw .store

def setStore (s : Git.Store) : Operation Repository Unit :=
  modify fun r => { r with files := r.files.put (storeLocation r.root) (.store s) }

def setStore? : Option Git.Store → Operation Repository Unit
  | some s => setStore s
  | none => throw .store

def onFiles {α : Type} (f : Location → Operation FileTree α) : Operation Repository α := do
  let r ← get
  let (result, files) := (f r.root).run r.files
  set { r with files := files }
  match result with
  | .ok a => return a
  | .error e => throw e

/-- Makes a repository without commits in a directory, which is made too, or finds the one that is
there. -/
def create (base : Location) (path : String) (identity : Git.Identity) :
    Operation FileTree Repository := do
  let root ← FileTree.createDirectory base path
  let t ← get
  let l := storeLocation root
  match t.get? l with
  | some (.store _) => pure ()
  | some (.text _) => throw .store
  | _ => set (t.put l (.store (.new mainBranch)))
  if identity.name.toList.contains '\x00' || identity.email.toList.contains '\x00' then throw .store
  return ⟨← get, root, identity⟩

/-! ### Staging -/

def pathOf (way : Location) : String := String.intercalate "/" way

/-- Whether a name is that of a store, in any case of its letters. -/
def isStoreName (name : String) : Bool := Text.lowerAscii name = FileTree.storeName

def hasStaged (index : Git.Snapshot) (path : String) : Bool :=
  index.any fun (p, _) => Git.Snapshot.isAbove path p

/-- The files of a directory that a commit stages. `rules` are those of the directories above, the
nearest first, and `ignored` says whether a directory above is ignored. `depth` bounds how deep
directories are nested. -/
def staged (t : FileTree) (root : Location) (index : Git.Snapshot) :
    Nat → List (List Git.IgnoreRule) → Bool → Location → Option Git.Snapshot
  | 0, _, _, _ => some []
  | depth + 1, rules, ignored, way => do
    let place := if way.isEmpty then "" else pathOf way ++ "/"
    let rules :=
      match t.get? (root ++ way ++ [".gitignore"]) with
      | some (.text s) => Git.IgnoreRule.ofText place s :: rules
      | _ => rules
    let names := (t.names (root ++ way)).filter fun n => !isStoreName n
    let parts ← names.mapM fun n => do
      let way := way ++ [n]
      let path := pathOf way
      let verdict := fun isDirectory =>
        (Git.IgnoreRule.verdict rules path isDirectory).getD ignored
      match t.get? (root ++ way) with
      | some (.text s) =>
        return if (index.get? path).isSome || !verdict false then [(path, s)] else []
      | _ =>
        if hasStaged index path then staged t root index depth rules (verdict true) way
        else if verdict true then return []
        -- another repository among the files keeps everything from being staged
        else if (t.get? (root ++ way ++ [FileTree.storeName])).isSome then none
        else staged t root index depth rules false way
    return parts.flatten

/-- The rules for files that are ignored in this repository alone, which its store holds. -/
def ownRules (t : FileTree) (root : Location) : List Git.IgnoreRule :=
  match t.get? (storeLocation root ++ ["info", "exclude"]) with
  | some (.text s) => Git.IgnoreRule.ofText "" s
  | _ => []

def stage : Operation Repository Git.Snapshot := do
  let r ← get
  let s ← store
  let depth := (r.files.entries.map (·.1.length)).foldl max 0
  match staged r.files r.root s.index (depth + 1) [ownRules r.files r.root] false [] with
  | none => throw .store
  | some files =>
    let index := Git.Snapshot.ofList files
    setStore { s with index := index }
    return index

/-! ### Checking out -/

/-- Takes away a directory that is empty, and then the one that it was in. -/
def prune (root : Location) : Location → FileTree → FileTree
  | [], t => t
  | part :: parts, t =>
    let way := (part :: parts).reverse
    let l := root ++ way
    if t.isDirectory l && (t.below l).isEmpty then prune root parts (t.erase l) else t

def removeFile (root : Location) (path : String) (t : FileTree) : FileTree :=
  let way := Text.splitOn '/' path
  match t.get? (root ++ way) with
  | some (.text _) => prune root (way.reverse.drop 1) (t.erase (root ++ way))
  | _ => t

/-- Makes a directory for files; a file in its place gives way. -/
def makeDirectories (root : Location) (t : FileTree) : Location → Location → FileTree
  | _, [] => t
  | way, part :: parts =>
    let way := way ++ [part]
    let l := root ++ way
    let t := if t.isDirectory l then t else (t.erase l).put l .directory
    makeDirectories root t way parts

/-- Writes a file; what is in its place gives way. -/
def writeFile (root : Location) (t : FileTree) (path text : String) : FileTree :=
  let way := Text.splitOn '/' path
  let t := makeDirectories root t [] way.dropLast
  let l := root ++ way
  (t.erase l).put l (.text text)

/-- The files after a snapshot is checked out where another one was. -/
def replaceFiles (root : Location) (before after : Git.Snapshot) (t : FileTree) : FileTree :=
  let gone := before.filter fun (p, _) => (after.get? p).isNone
  let t := gone.foldl (fun t (p, _) => removeFile root p t) t
  after.foldl (fun t (p, text) => writeFile root t p text) t

def checkoutSnapshot (snapshot : Git.Snapshot) : Operation Repository Unit := do
  let s ← store
  modify fun r => { r with
    files := replaceFiles r.root (s.headSnapshot ++ s.index) snapshot r.files }
  setStore { s with index := snapshot }

/-- What is checked out after a reference of a name is; it need not be there. -/
def headOf? (s : Git.Store) (name : String) : Option Git.Head :=
  (Git.RefName.normalize? name).map fun full =>
    match s.branches.lookup full with
    | some _ => .branch full
    | none =>
      match s.tags.lookup full with
      | some t => .detached (Git.hexId (s.history.id t.target))
      | none => .branch full

def checkout (name : String) : Operation Repository Unit := do
  let full := Git.RefName.headsPlace ++ name
  let s ← store
  match Git.Revision.resolve s full with
  | none => throw (.configuration (.checkout name))
  | some target =>
    match target.snapshot? s with
    | none => throw .store
    | some snapshot =>
      -- the files change first, and what is checked out after them
      checkoutSnapshot snapshot
      let s ← store
      setStore? ((headOf? s full).map fun h => { s with head := h })

/-! ### Branches, commits and tags -/

def currentBranch : Operation Repository String := do
  match (← store).head with
  | .branch name => return Git.RefName.shorten name
  | .detached _ => throw (.configuration .detachedHead)
  | .damaged _ => throw .store

def tip (branch : String) : Operation Repository Nat := do
  match (← store).tip? branch with
  | some n => return n
  | none => throw (.configuration (.missingBranch branch))

def branchExists (name : String) : Operation Repository Bool := do
  if (Git.RefName.branch? name).isNone then throw .store
  return ((← store).tip? name).isSome

def createBranch (name start : String) : Operation Repository Unit := do
  let n ← tip start
  setStore? ((← store).createBranch? name n)
  checkout name

def signature (time : String) : Operation Repository Git.Signature := do
  let t ← (Time.Timestamp.ofText time : Except Fault _)
  match Git.Signature.make (← get).identity t with
  | some s => return s
  | none => throw .store

def addCommit (c : Git.CommitObject) : Operation Repository String := do
  match (← store).commit? c with
  | some (id, s) =>
    setStore s
    return id
  | none => throw .store

def headCommit : Operation Repository (Option Nat) := do
  match (← store).headCommit with
  | .ok n => return n
  | .error e => throw e

def checkoutHead : Operation Repository Unit := do
  match ← headCommit with
  | some n => checkoutSnapshot ((← store).history.snapshot n)
  | none => throw .store

def commit (message time : String) : Operation Repository String := do
  let snapshot ← stage
  let signature ← signature time
  let parent ← headCommit
  addCommit ⟨snapshot, parent.toList, signature, message⟩

def merge [Git.Merger] (branch : String) (mode : MergeMode) : Operation Repository Unit := do
  let current ← currentBranch
  let ours ← tip current
  let theirs ← tip branch
  let s ← store
  match mode with
  | .fastForward =>
    if ours = theirs then return
    if !s.history.isAncestor ours theirs then throw (.merge (.diverged current branch))
    setStore? ((Git.RefName.branch? current).map fun name => s.setTip name theirs)
    checkoutHead
  | .withCommit c =>
    let r ← get
    let merged := Git.Merger.merge r.files r.root s ours theirs
    if !merged.conflicts.isEmpty then throw (.merge (.conflict branch current merged.conflicts))
    let signature ← signature c.datetime
    let _ ← addCommit ⟨merged.snapshot, [ours, theirs], signature, c.message⟩
    checkoutHead

def tag (name message time : String) : Operation Repository Unit := do
  match ← headCommit with
  | none => throw (.configuration (.tagBeforeCommit name))
  | some n =>
    let signature ← signature time
    let t : Git.TagObject := ⟨name, n, signature, message⟩
    if !signature.isStorable || message.toList.contains '\x00' then throw .store
    setStore? ((← store).createTag? t)

/-- The summaries of the commits of a branch, oldest first. -/
def log (branch : String) : Operation Repository (List String) := do
  let n ← tip branch
  return (← store).history.log n

end Repository

instance [Git.Merger] : WorkTree Repository where
  currentBranch := Repository.currentBranch
  branchExists := Repository.branchExists
  createBranch := Repository.createBranch
  checkout := Repository.checkout
  readText path := Repository.onFiles fun root => FileTree.readText? root path
  writeText path text := Repository.onFiles fun root => FileTree.writeText root path text
  commit := Repository.commit
  merge := Repository.merge
  tag := Repository.tag
  tags := do return (← Repository.store).tagNames
  log := Repository.log

end ReleaseHistory
