import ReleaseHistory.Digest.Adler32
import ReleaseHistory.Git.Store

/-!
# The files of a store

A store is kept in files: one for each object, under its name, one for each branch and tag, one for
what is checked out, one for the index and one for settings.
-/

namespace ReleaseHistory.Git

abbrev StoredFile := String × List UInt8

def textFile (path text : String) : StoredFile := (path, text.toUTF8.toList)

def Encoded.file (e : Encoded) : StoredFile :=
  let hex := hexId e.id
  (s!"objects/{hex.take 2}/{hex.drop 2}", Digest.storedStream e.bytes)

def indexEntry (path text : String) : List UInt8 :=
  let content := text.toUTF8.toList
  -- what the index could know about the file in the work tree is left at zero
  let zeros := fun n => List.replicate n (0 : UInt8)
  let name := path.toUTF8.toList
  let head := zeros 24 ++ Digest.bigBytes 0x81a4 ++ zeros 8 ++
    Digest.bigBytes content.length.toUInt32 ++ (blob text).id ++
    (Digest.littlePair (min name.length 0xfff)).reverse ++ name
  head ++ zeros (8 - head.length % 8)

def Snapshot.indexBytes (s : Snapshot) : List UInt8 :=
  let body := "DIRC".toUTF8.toList ++ Digest.bigBytes 2 ++ Digest.bigBytes s.length.toUInt32 ++
    s.flatMap fun (path, text) => indexEntry path text
  body ++ Digest.Sha1.digest body

/-- A value of a setting, in quotes. -/
def quotedSetting (s : String) : String :=
  let escape := fun (c : Char) =>
    if c = '\n' then ['\\', 'n'] else if c = '\x22' || c = '\\' then ['\\', c] else [c]
  "\x22" ++ String.ofList (s.toList.flatMap escape) ++ "\x22"

def settingsText (i : Identity) : String :=
  let user := s!"[user]\n\tname = {quotedSetting i.name}\n\temail = {quotedSetting i.email}\n"
  "[core]\n\tbare = false\n\trepositoryformatversion = 0\n\tfilemode = true\n" ++
    "\tlogallrefupdates = true\n" ++ user ++
    "[commit]\n\tgpgsign = false\n[tag]\n\tgpgsign = false\n"

def Store.files (s : Store) (i : Identity) : List StoredFile :=
  let id := fun n => hexId (s.history.id n) ++ "\n"
  let tag := fun (name : String) (t : TagObject) =>
    textFile name (hexId (t.encode (s.history.id t.target)).id ++ "\n")
  [textFile Store.headFile s.head.text, textFile "config" (settingsText i),
    ("index", s.index.indexBytes)] ++
    s.branches.map (fun (name, n) => textFile name (id n)) ++
    s.tags.map (fun (name, t) => tag name t) ++ s.objects.eraseDups.map Encoded.file

end ReleaseHistory.Git
