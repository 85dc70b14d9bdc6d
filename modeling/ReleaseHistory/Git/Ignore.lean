import ReleaseHistory.Git.Object
import ReleaseHistory.Text.Glob

/-!
# Ignored files

A file of ignore rules holds one glob a line. Rules count for the directory of their file and for
what is below it. The last rule that applies decides, and the rules of a deeper file come before
those of a file above it.
-/

namespace ReleaseHistory.Git

/-- A rule about which files are ignored. -/
structure IgnoreRule where
  glob : String
  /-- Takes files back that an earlier rule ignores. -/
  negated : Bool
  /-- For paths below the place, and not for names alone. -/
  whole : Bool
  directoriesOnly : Bool
  /-- Whether the glob has characters that stand for others. -/
  isWild : Bool
  /-- The directory of the rule with a slash after it; empty at the root. -/
  place : String
  deriving DecidableEq, Repr

namespace IgnoreRule

/-! ### Lines -/

structure Scan where
  escaped : Bool := false
  slashes : Nat := 0
  isWild : Bool := false

/-- The characters of a glob, those that follow it, and how the scan ended. A backslash lets a blank
stand in a glob, also a line feed. -/
def scanGlob : Scan → List Char → List Char × List Char × Scan
  | s, [] => ([], [], s)
  | s, c :: cs =>
    if c = '\\' && !s.escaped then
      let (g, rest, s) := scanGlob { s with escaped := true } cs
      (c :: g, rest, s)
    else if isSpace c && !s.escaped && c ≠ ' ' && c ≠ '\t' && c ≠ '\r' then ([], c :: cs, s)
    else
      let slashes := if c = '/' then s.slashes + 1 else s.slashes
      let isWild := s.isWild || (!s.escaped && (c = '*' || c = '?' || c = '['))
      let (g, rest, s) := scanGlob ⟨false, slashes, isWild⟩ cs
      (c :: g, rest, s)

/-- What begins on the next line that is not empty. -/
def nextLine (cs : List Char) : List Char :=
  (cs.dropWhile (· ≠ '\n')).dropWhile fun c => c = '\n' || c = '\r'

/-- Drops blanks from the end of a reversed glob, up to one that a backslash keeps. -/
def dropBlanks : List Char → List Char
  | [] => []
  | c :: cs =>
    if (c = ' ' || c = '\t') && (cs.takeWhile (· = '\\')).length % 2 = 0 then dropBlanks cs
    else c :: cs

/-- A glob without the backslashes that stand before blanks, and without one at its end. -/
def unescapeBlanks : List Char → List Char
  | [] => []
  | '\\' :: c :: cs => if isSpace c then c :: unescapeBlanks cs else '\\' :: c :: unescapeBlanks cs
  | ['\\'] => []
  | c :: cs => c :: unescapeBlanks cs

def ofGlob? (place : String) (negated : Bool) (glob : List Char) (s : Scan) : Option IgnoreRule :=
  let isRooted := glob.head? = some '/'
  let glob := if isRooted then glob.drop 1 else glob
  let reversed := dropBlanks (Text.dropReturn glob).reverse
  let directoriesOnly := reversed.head? = some '/'
  let reversed := if directoriesOnly then reversed.drop 1 else reversed
  let slashes := if directoriesOnly then s.slashes - 1 else s.slashes
  if reversed.isEmpty && !directoriesOnly then none
  else
    let glob := String.ofList (unescapeBlanks reversed.reverse)
    some ⟨glob, negated, slashes ≠ 0, directoriesOnly, s.isWild, place⟩

/-- Reads the rule that a text begins with, if it begins with one, and what follows. -/
def readOne (place : String) (cs : List Char) : Option IgnoreRule × List Char :=
  match cs with
  | '#' :: _ => (none, nextLine cs)
  | '\n' :: _ => (none, nextLine cs)
  | '\r' :: '\n' :: _ => (none, nextLine cs)
  | _ =>
    let negated := cs.head? = some '!'
    let (glob, rest, s) := scanGlob {} (if negated then cs.drop 1 else cs)
    (ofGlob? place negated glob s, nextLine rest)

/-! ### Rules that take back nothing -/

def isLastPart (short long : String) : Bool :=
  !short.toList.contains '/' && ("/" ++ short).toList.isSuffixOf long.toList

/-- Whether a rule without wildcards takes something back from another rule of its file. -/
def takesBack (rule earlier : IgnoreRule) : Bool :=
  if earlier.isWild then
    Text.Glob.matchesText earlier.whole (earlier.place ++ earlier.glob) (rule.place ++ rule.glob)
  else
    !earlier.negated && (rule.glob = earlier.glob || isLastPart rule.glob earlier.glob ||
      isLastPart earlier.glob rule.glob)

def counts (earlier : List IgnoreRule) (rule : IgnoreRule) : Bool :=
  !rule.negated || rule.isWild || earlier.any rule.takesBack

/-- Adds the rules of a text to earlier ones; `fuel` is more than the number of characters. -/
def readAll (place : String) : Nat → List IgnoreRule → List Char → List IgnoreRule
  | 0, rules, _ => rules
  | _ + 1, rules, [] => rules
  | fuel + 1, rules, cs =>
    let (rule, rest) := readOne place cs
    readAll place fuel (rules ++ (rule.toList.filter (counts rules))) rest

/-- The rules of a file at a place. -/
def ofText (place text : String) : List IgnoreRule :=
  let cs := text.toList
  let cs := if cs.head? = some '\ufeff' then cs.drop 1 else cs
  -- the text ends at a zero character
  let cs := cs.takeWhile (· ≠ '\x00')
  readAll place (cs.length + 1) [] cs

/-! ### Paths -/

def applies (rule : IgnoreRule) (path : String) (isDirectory : Bool) : Bool :=
  match Text.dropStart? rule.place.toList path.toList with
  | none => false
  | some below =>
    let name := if rule.whole then below else (Text.splitAll '/' path.toList).getLastD []
    (isDirectory || !rule.directoriesOnly) &&
      Text.Glob.matchesText rule.whole rule.glob (String.ofList name)

/-- What the rules of one file say about a path: that it is ignored, that it is not, or nothing. -/
def verdictOf (rules : List IgnoreRule) (path : String) (isDirectory : Bool) : Option Bool :=
  (rules.reverse.find? fun r => r.applies path isDirectory).map (!·.negated)

/-- What the rules of several files say about a path, those of the deepest file first. -/
def verdict (files : List (List IgnoreRule)) (path : String) (isDirectory : Bool) : Option Bool :=
  files.findSome? fun rules => verdictOf rules path isDirectory

end IgnoreRule

end ReleaseHistory.Git
