import ReleaseHistory.Digest.Blake3
import ReleaseHistory.FileTree

/-!
# Build hashes

A build is named by the digest of named texts. Each name and each text is followed by a zero byte,
so that none of them, if they hold no zero bytes themselves, can flow into the next. Files are
digested as texts that are named by their paths.
-/

namespace ReleaseHistory.BuildHash

def bytes (s : String) : List UInt8 := s.toUTF8.toList

def frame (name text : List UInt8) : List UInt8 := name ++ [0] ++ text ++ [0]

def input (sources : List (String × String)) : List UInt8 :=
  sources.flatMap fun (name, text) => frame (bytes name) (bytes text)

/-- The digest of named texts, in hexadecimal digits. -/
def ofSources (sources : List (String × String)) : String :=
  Text.hexOfBytes (Digest.Blake3.digest (input sources))

def feedFile (base : Location) (fed : List UInt8) (path : String) :
    Operation FileTree (List UInt8) := do
  return fed ++ frame (bytes path) (bytes (← FileTree.readText base path))

/-- The digest of files, which are read one after the other, in hexadecimal digits. -/
def ofFiles (base : Location) (paths : List String) : Operation FileTree String := do
  return Text.hexOfBytes (Digest.Blake3.digest (← paths.foldlM (feedFile base) []))

end ReleaseHistory.BuildHash
