import ReleaseHistory.Digest.Sha1
import ReleaseHistory.Git.Signature

/-!
# Objects

A snapshot is the content of a work tree: paths and texts, in the order of the paths. A commit holds
a snapshot, its parents and who made it. Objects are named by the digest of their stored form, in
which a directory is an object of its own.
-/

namespace ReleaseHistory.Git

/-- Paths from the root, with slashes between their parts, and texts, in the order of the paths. -/
abbrev Snapshot := List (String × String)

namespace Snapshot

def get? (path : String) (s : Snapshot) : Option String := s.lookup path

def insert (path text : String) : Snapshot → Snapshot
  | [] => [(path, text)]
  | (p, t) :: rest =>
    if path = p then (path, text) :: rest
    else if path < p then (path, text) :: (p, t) :: rest
    else (p, t) :: insert path text rest

def ofList (entries : List (String × String)) : Snapshot :=
  entries.foldl (fun s (p, t) => s.insert p t) []

end Snapshot

/-- The name of an object: twenty bytes. -/
abbrev ObjectId := List UInt8

def hexId (id : ObjectId) : String := Text.hexOfBytes id

structure Encoded where
  kind : String
  content : List UInt8
  deriving DecidableEq

namespace Encoded

def bytes (e : Encoded) : List UInt8 :=
  s!"{e.kind} {e.content.length}".toUTF8.toList ++ [0] ++ e.content

def id (e : Encoded) : ObjectId := Digest.Sha1.digest e.bytes

end Encoded

def blob (text : String) : Encoded := ⟨"blob", text.toUTF8.toList⟩

/-- What is in a directory, by name: the mode, and the objects of it, of which the first is its
own. -/
structure TreeEntry where
  name : String
  mode : String
  objects : List Encoded

/-- The name by which entries are ordered; that of a directory ends with a slash. -/
def TreeEntry.key (e : TreeEntry) : String := if e.mode = "40000" then e.name ++ "/" else e.name

def TreeEntry.bytes (e : TreeEntry) : List UInt8 :=
  (e.mode ++ " " ++ e.name).toUTF8.toList ++ [0] ++ ((e.objects.head?.map Encoded.id).getD [])

/-- The objects of a directory, given by the paths and texts below it: its own, and then those of
its files and directories. `depth` bounds how deep directories are nested. -/
def treeObjects : Nat → List (List String × String) → List Encoded
  | 0, _ => [⟨"tree", []⟩]
  | depth + 1, files =>
    let names := (files.filterMap (·.1.head?)).eraseDups
    let entry := fun (name : String) =>
      let below := files.filterMap fun (path, text) =>
        match path with
        | [] => none
        | first :: rest => if first = name then some (rest, text) else none
      match below with
      | [([], text)] => TreeEntry.mk name "100644" [blob text]
      | below => TreeEntry.mk name "40000" (treeObjects depth below)
    let entries := (names.map entry).mergeSort fun a b => a.key ≤ b.key
    ⟨"tree", entries.flatMap TreeEntry.bytes⟩ :: entries.flatMap (·.objects)

/-- The objects of a snapshot: the directory at its root, and then all below it. -/
def Snapshot.objects (s : Snapshot) : List Encoded :=
  let files := s.map fun (path, text) => (Text.splitOn '/' path, text)
  treeObjects ((files.map (·.1.length)).foldl max 0 + 1) files

def Snapshot.id (s : Snapshot) : ObjectId := (s.objects.head?.map Encoded.id).getD []

/-! ### Commits and tags -/

/-- A commit, by the numbers of its parents in the history that it belongs to. -/
structure CommitObject where
  snapshot : Snapshot
  parents : List Nat
  signature : Signature
  message : String
  deriving DecidableEq

/-- An annotated tag: its name as it was given, and the number of its commit. -/
structure TagObject where
  name : String
  target : Nat
  signature : Signature
  message : String
  deriving DecidableEq

def encodeLines (kind : String) (lines : List String) (message : String) : Encoded :=
  ⟨kind, (String.join (lines.map (· ++ "\n")) ++ "\n" ++ message).toUTF8.toList⟩

def CommitObject.encode (c : CommitObject) (parents : List ObjectId) : Encoded :=
  encodeLines "commit" ([s!"tree {hexId c.snapshot.id}"] ++
    parents.map (fun p => s!"parent {hexId p}") ++
    [s!"author {c.signature.text}", s!"committer {c.signature.text}"]) c.message

def TagObject.encode (t : TagObject) (target : ObjectId) : Encoded :=
  encodeLines "tag" [s!"object {hexId target}", "type commit", s!"tag {t.name}",
    s!"tagger {t.signature.text}"] t.message

/-! ### Messages -/

/-- A message as it is read back, without line feeds at its beginning. -/
def readMessage (s : String) : String := String.ofList (s.toList.dropWhile (· = '\n'))

def isSpace (c : Char) : Bool := c = ' ' || (0x09 ≤ c.toNat && c.toNat ≤ 0x0d)

/-- Whether the first paragraph ends before some characters that a line feed comes before. -/
def endsParagraph (rest : List Char) : Bool :=
  match rest.dropWhile fun c => isSpace c && c ≠ '\n' with
  | [] => true
  | c :: _ => c = '\n'

/-- The first paragraph in one line: a blank that holds a line feed becomes a single one, and blanks
at its end go. `pending` is the blank since the last character that is none. -/
def summaryOf (pending : List Char) : List Char → List Char
  | [] => []
  | c :: rest =>
    if c = '\n' && endsParagraph rest then []
    else if isSpace c then summaryOf (c :: pending) rest
    else
      let blank := if pending.contains '\n' then [' '] else pending.reverse
      blank ++ c :: summaryOf [] rest

def summary (message : String) : String :=
  String.ofList (summaryOf [] (readMessage message).toList)

end ReleaseHistory.Git
