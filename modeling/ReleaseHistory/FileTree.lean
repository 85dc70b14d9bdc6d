import ReleaseHistory.Git.Store

/-!
# File trees

A file tree holds directories, texts and the stores of repositories. A path is followed part by
part; every part but the last must be there and be a directory. Nothing is above the root.
-/

namespace ReleaseHistory

abbrev Location := List String

/-- What is at a location. -/
inductive Entry
  | directory
  | text (s : String)
  /-- A directory that is the store of a repository. -/
  | store (s : Git.Store)

def Entry.isDirectory : Entry → Bool
  | .text _ => false
  | _ => true

/-- Entries at locations; the root itself is always a directory. -/
structure FileTree where
  /-- The absolute path of the root. -/
  mount : String
  entries : List (Location × Entry)

namespace FileTree

def new (mount : String) : FileTree := ⟨mount, []⟩

/-! ### Entries -/

/-- The rest of a way, if it leads through a location. -/
def below? (location : Location) (way : Location) : Option Location :=
  match location, way with
  | [], way => some way
  | _ :: _, [] => none
  | l :: ls, w :: ws => if l = w then below? ls ws else none

/-- The store in which a location is, and the path of the location in it. -/
def storeAbove? (t : FileTree) (location : Location) : Option (Location × Git.Store × String) :=
  t.entries.findSome? fun (l, e) =>
    match e, below? l location with
    | .store s, some (part :: parts) => some (l, s, String.intercalate "/" (part :: parts))
    | _, _ => none

/-- What is at a location. Some files of a store are not kept, but written from it. -/
def get? (t : FileTree) (location : Location) : Option Entry :=
  if location.isEmpty then some .directory
  else
    match t.entries.lookup location with
    | some e => some e
    | none => (t.storeAbove? location).bind fun (_, s, path) => (s.file? path).map .text

def isDirectory (t : FileTree) (location : Location) : Bool :=
  (t.get? location).any Entry.isDirectory

def put (t : FileTree) (location : Location) (e : Entry) : FileTree :=
  { t with entries := (location, e) :: t.entries.filter (·.1 ≠ location) }

/-- Puts a text at a location, which may be in a store. -/
def putText (t : FileTree) (location : Location) (text : String) : FileTree :=
  match t.storeAbove? location with
  | some (l, s, path) =>
    match s.writeFile? path text with
    | some s => t.put l (.store s)
    | none => t.put location (.text text)
  | none => t.put location (.text text)

def erase (t : FileTree) (location : Location) : FileTree :=
  { t with entries := t.entries.filter fun (l, _) => (below? location l).isNone }

/-- What is below a location, with the ways from there. -/
def below (t : FileTree) (location : Location) : List (Location × Entry) :=
  t.entries.filterMap fun (l, e) =>
    match below? location l with
    | some [] => none
    | some way => some (way, e)
    | none => none

/-- The names right below a location, in order. -/
def names (t : FileTree) (location : Location) : List String :=
  ((t.below location).filterMap fun (way, _) => if way.length = 1 then way.head? else none).mergeSort
    fun a b => a ≤ b

/-! ### Paths -/

def maxName : Nat := 255

/-- Whether a name can stand in a path. -/
def isName (s : String) : Bool := s.utf8ByteSize ≤ maxName && !s.toList.contains '\x00'

def step? (t : FileTree) (location : Location) (part : String) : Option Location :=
  if !t.isDirectory location || !isName part then none
  else if part = "." then some location
  else if part = ".." then (if location.isEmpty then none else some location.dropLast)
  else some (location ++ [part])

/-- The parts of a path. A slash at its end stands for the directory itself. -/
def partsOf (path : String) : List String :=
  (Text.splitOn '/' path).filter (· ≠ "") ++ (if path.endsWith "/" then ["."] else [])

/-- Where a path begins, and its parts. An absolute path must be one below the root. -/
def origin? (t : FileTree) (base : Location) (path : String) : Option (Location × List String) :=
  if path.startsWith (t.mount ++ "/") || path = t.mount then
    some ([], partsOf (path.drop t.mount.length).toString)
  else if path.startsWith "/" then none
  else some (base, partsOf path)

/-- Where a path leads from a location. -/
def locate? (t : FileTree) (base : Location) (path : String) : Option Location :=
  (t.origin? base path).bind fun (l, parts) => parts.foldlM t.step? l

def find? (t : FileTree) (base : Location) (path : String) : Option (Location × Entry) :=
  (t.locate? base path).bind fun l => (t.get? l).map fun e => (l, e)

/-! ### Reading and writing -/

/-- Makes the directories of a path, as far as they are not there. -/
def createDirectories (location : Location) : List String → Operation FileTree Location
  | [] => pure location
  | part :: parts => do
    match (← get).step? location part with
    | none => throw .file
    | some l =>
      match (← get).get? l with
      | none => modify fun t => t.put l .directory
      | some e => if !e.isDirectory then throw .file
      createDirectories l parts

def createDirectory (base : Location) (path : String) : Operation FileTree Location := do
  match (← get).origin? base path with
  | none => throw .file
  | some (l, parts) =>
    if path.toList.contains '\x00' then throw .file
    createDirectories l parts

def readText? (base : Location) (path : String) : Operation FileTree (Option String) := do
  match (← get).find? base path with
  | none => return none
  | some (_, .text s) => return some s
  | some _ => throw .file

def readText (base : Location) (path : String) : Operation FileTree String := do
  match ← readText? base path with
  | some s => return s
  | none => throw .file

def writeHere (base : Location) (path text : String) : Operation FileTree Unit := do
  let t ← get
  match t.locate? base path with
  | none => throw .file
  | some l =>
    if t.isDirectory l then throw .file
    set (t.putText l text)

def writeText (base : Location) (path text : String) : Operation FileTree Unit := do
  match (← get).origin? base path with
  | none => throw .file
  | some (l, parts) =>
    if path.toList.contains '\x00' then throw .file
    let _ ← createDirectories l (parts.filter (· ≠ ".")).dropLast
    writeHere base path text

def remove (base : Location) (path : String) : Operation FileTree Unit := do
  let t ← get
  match t.find? base path with
  | some (l, _) => if l.isEmpty then throw .file else set (t.erase l)
  | none => throw .file

/-! ### Copying -/

/-- Copies the entries below a directory into another, one after the other. -/
def copyEntries (source target : Location) : List (Location × Entry) → Operation FileTree Unit
  | [] => pure ()
  | (way, e) :: rest => do
    let t ← get
    let l := target ++ way
    match t.get? l, e with
    -- the target is emptied before the source is read, so a file copied to itself becomes empty
    | some (.text _), .text s => set (t.putText l (if source = target then "" else s))
    | none, e => set (t.put l e)
    | some .directory, .directory => pure ()
    | some .directory, .store s => set (t.put l (.store s))
    | some (.store other), .store s =>
      -- the objects of a store are never written over
      if s.sharesObjects other then throw .file
      set (t.put l (.store (s.copiedOver other)))
    | some (.store _), .directory => pure ()
    | some _, _ => throw .file
    copyEntries source target rest

/-- Copies all that is in a directory into another one, which is made before the first is looked
at. -/
def copyDirectory (base : Location) (source target : String) : Operation FileTree Unit := do
  let into ← createDirectory base target
  let t ← get
  match t.find? base source with
  | some (l, e) =>
    if !e.isDirectory then throw .file
    -- a copy into itself would find ever more to copy
    if l ≠ into && (below? l into).isSome then throw .file
    let entries := (t.below l).mergeSort fun a b => a.1.length ≤ b.1.length
    copyEntries l into entries
  | none => throw .file

/-! ### Listing -/

def storeName : String := ".git"

/-- The files below a location with their texts, and the directories with a slash at their ends;
stores are left out. -/
def listing (t : FileTree) (location : Location) : List (String × Option String) :=
  (t.below location).filterMap fun (way, e) =>
    let path := String.intercalate "/" way
    if way.contains storeName then none
    else
      match e with
      | .text s => some (path, some s)
      | _ => some (path ++ "/", none)

/-! ### Differences -/

def holds (t : FileTree) (l : Location) (e : Entry) : Bool :=
  match t.get? l, e with
  | some (.text a), .text b => a = b
  | some .directory, .directory => true
  | _, _ => false

/-- What another tree holds that this one does not, directories before what is in them. -/
def changes (before after : FileTree) : List (Location × Entry) :=
  (after.entries.filter fun (l, e) => !before.holds l e).mergeSort fun a b =>
    a.1.length ≤ b.1.length

def pathOf (t : FileTree) (l : Location) : String := t.mount ++ "/" ++ String.intercalate "/" l

end FileTree

end ReleaseHistory
