import ReleaseHistory.CommandLine.Run
import ReleaseHistory.Git.Files

/-!
# The program

Files that a command may read are loaded into a file tree, the command runs on the tree, and what it
changed there is written.
-/

namespace ReleaseHistory.Main

attribute [local instance] Pattern.Engine.builtIn Git.Merger.builtIn

/-- A directory of the user: what a variable says if that is absolute, or one below the home. -/
def userDirectory (name below : String) : IO String := do
  match ← IO.getEnv name with
  | some path =>
    if path.startsWith "/" then return path
    else return Path.join ((← IO.getEnv "HOME").getD "/") below
  | none => return Path.join ((← IO.getEnv "HOME").getD "/") below

/-- Where the program runs. -/
def environment : IO Environment := do
  let here := FileTree.partsOf (← IO.currentDir).toString
  let configurations ← userDirectory "XDG_CONFIG_HOME" ".config"
  let caches ← userDirectory "XDG_CACHE_HOME" ".cache"
  -- one revision stands for all texts: it is changed with what is built
  return ⟨here, configurations, caches, fun _ => "1"⟩

def load (e : Environment) (t : FileTree) (path : String) : IO FileTree := do
  try
    let text ← IO.FS.readFile path
    return ((FileTree.writeText e.workingDirectory path text).run t).2
  catch _ => return t

def writeFile (path : String) (bytes : List UInt8) : IO Unit := do
  let parts := FileTree.partsOf path
  IO.FS.createDirAll ("/" ++ String.intercalate "/" parts.dropLast)
  IO.FS.writeBinFile path ⟨bytes.toArray⟩

def save (identity : Git.Identity) (before after : FileTree) : IO Unit := do
  for (l, e) in before.changes after do
    let path := after.pathOf l
    match e with
    | .directory => IO.FS.createDirAll path
    | .text s => writeFile path s.toUTF8.toList
    | .store s => do
      for directory in ["objects", "refs/heads", "refs/tags"] do
        IO.FS.createDirAll (Path.join path directory)
      for (file, bytes) in s.files identity do
        writeFile (Path.join path file) bytes

/-- Loads the files of a command, runs it and writes what it changed. -/
def execute (e : Environment) (args : List String) (configuration : Option String)
    (c : CommandLine.Command) : IO CommandLine.Outcome := do
  let home := (FileTree.createDirectories [] e.workingDirectory).run (.new "")
  let t ← (Preferences.candidates e configuration).foldlM (load e) home.2
  let p := match ((Preferences.load e configuration).run t).1 with
    | .ok p => p
    | .error _ => .default
  match CommandLine.cacheOf? e p c with
  | none => return ((CommandLine.run e args).run t).1
  | some (cache, name) =>
    let t ← load e t (CacheSession.dataPath cache name)
    let (outcome, after) := (CommandLine.run e args).run t
    let repository := CacheSession.repositoryPath cache name
    if (after.find? e.workingDirectory repository).isSome then
      try IO.FS.removeDirAll repository catch _ => pure ()
    save p.identity t after
    return outcome

/-- Runs a command line. One that names no command needs no files. -/
def run (args : List String) : IO CommandLine.Outcome := do
  let e ← environment
  match CommandLine.parse args with
  | some (.run configuration c) => execute e args configuration c
  | _ => return ((CommandLine.run e args).run (.new "")).1

end ReleaseHistory.Main

def main (args : List String) : IO UInt32 := do
  let outcome ← ReleaseHistory.Main.run args
  (← IO.getStdout).putStr outcome.output
  (← IO.getStderr).putStr outcome.errors
  return outcome.code.toUInt32
