import ReleaseHistory.Text.Digits
import ReleaseHistory.Toml.Document
import ReleaseHistory.Toml.Value

/-!
# Reading configuration documents

Each reader takes characters and returns what it read and the characters that follow. Strings are
read in full; of other scalars it is checked that they are well formed and in range.
-/

namespace ReleaseHistory.Toml.Parser

/-- A reader: what it read and what follows, unless there is no such thing. -/
abbrev Reader (α : Type) := List Char → Option (α × List Char)

/-! ### Blanks, comments and ends of lines -/

def isBlank (c : Char) : Bool := c = ' ' || c = '\t'

def skipBlanks (cs : List Char) : List Char := cs.dropWhile isBlank

/-- Whether a character can stand in texts as it is: no control character but the tab. -/
def isVisible (c : Char) : Bool := c = '\t' || (0x20 ≤ c.toNat && c.toNat ≠ 0x7f)

def lineEnd? : List Char → Option (List Char)
  | '\n' :: cs => some cs
  | '\r' :: '\n' :: cs => some cs
  | _ => none

def skipComment (cs : List Char) : List Char :=
  match cs with
  | '#' :: rest => rest.dropWhile isVisible
  | _ => cs

/-- What follows the end of a statement: blanks, a comment, and the end of the line or of the
document. -/
def statementEnd? (cs : List Char) : Option (List Char) :=
  match skipComment (skipBlanks cs) with
  | [] => some []
  | rest => lineEnd? rest

/-- Drops blanks, comments and ends of lines; `fuel` is more than the number of characters. A
comment must have an end of line. -/
def skipLines : Nat → List Char → Option (List Char)
  | 0, cs => some cs
  | fuel + 1, cs =>
    match skipBlanks cs with
    | '#' :: rest =>
      match lineEnd? (rest.dropWhile isVisible) with
      | some rest => skipLines fuel rest
      | none => none
    | '\n' :: rest => skipLines fuel rest
    | '\r' :: rest =>
      match rest with
      | '\n' :: rest => skipLines fuel rest
      | _ => none
    | rest => some rest

/-! ### Strings -/

def double : Char := '\x22'
def single : Char := '\x27'

def readCode (width : Nat) : Reader Char := fun cs =>
  let digits := cs.take width
  match Text.hexNumber? digits with
  | some n =>
    if digits.length = width && (n < 0xd800 || (0xe000 ≤ n && n < 0x110000)) then
      some (Char.ofNat n, cs.drop width)
    else none
  | none => none

def readEscape : Reader Char
  | 'b' :: cs => some ('\x08', cs)
  | 't' :: cs => some ('\t', cs)
  | 'n' :: cs => some ('\n', cs)
  | 'f' :: cs => some ('\x0c', cs)
  | 'r' :: cs => some ('\r', cs)
  | '\\' :: cs => some ('\\', cs)
  | 'u' :: cs => readCode 4 cs
  | 'U' :: cs => readCode 8 cs
  | c :: cs => if c = double then some (c, cs) else none
  | [] => none

/-- The rest of a string in one line, up to its closing quote. -/
def readLine (quote : Char) : Nat → Reader (List Char)
  | 0, _ => none
  | _ + 1, [] => none
  | fuel + 1, c :: cs =>
    let add := fun (d : Char) rest => (readLine quote fuel rest).map fun (ds, rest) => (d :: ds, rest)
    if c = quote then some ([], cs)
    else if c = '\\' && quote = double then
      match readEscape cs with
      | some (d, rest) => add d rest
      | none => none
    else if isVisible c then add c cs
    else none

/-- What follows a backslash at the end of a line: all blanks and ends of lines are dropped. -/
def skipBreak? (cs : List Char) : Option (List Char) :=
  match lineEnd? (skipBlanks cs) with
  | none => none
  | some rest => some (go rest.length rest)
where
  /-- Drops blanks and ends of lines. -/
  go : Nat → List Char → List Char
    | 0, cs => cs
    | fuel + 1, cs =>
      match lineEnd? (skipBlanks cs) with
      | some rest => go fuel rest
      | none => skipBlanks cs

/-- The rest of a string over lines, up to its closing quotes. Up to two quotes can stand right
before these. -/
def readLines (quote : Char) : Nat → Reader (List Char)
  | 0, _ => none
  | _ + 1, [] => none
  | fuel + 1, c :: cs =>
    let add := fun (ds : List Char) rest =>
      (readLines quote fuel rest).map fun (es, rest) => (ds ++ es, rest)
    if c = quote then
      let run := (c :: cs).takeWhile (· = quote)
      let rest := (c :: cs).dropWhile (· = quote)
      if run.length < 3 then add run rest
      else if run.length ≤ 5 then some (run.drop 3, rest)
      else none
    else if c = '\\' && quote = double then
      match skipBreak? cs with
      | some rest => add [] rest
      | none =>
        match readEscape cs with
        | some (d, rest) => add [d] rest
        | none => none
    else
      match lineEnd? (c :: cs) with
      | some rest => add ['\n'] rest
      | none => if isVisible c then add [c] cs else none

/-- A string in any of its four forms; `fuel` is more than the number of characters. -/
def readString (fuel : Nat) : Reader String
  | a :: b :: c :: cs =>
    if a ≠ double && a ≠ single then none
    else if b = a && c = a then
      -- an end of line right after tripled quotes is not part of the string
      (readLines a fuel ((lineEnd? cs).getD cs)).map fun (ds, rest) => (String.ofList ds, rest)
    else (readLine a fuel (b :: c :: cs)).map fun (ds, rest) => (String.ofList ds, rest)
  | [a, b] => if (a = double || a = single) && a = b then some ("", []) else none
  | _ => none

/-! ### Keys -/

def isBare (c : Char) : Bool := c.isAlphanum || c = '-' || c = '_'

def readPart (fuel : Nat) : Reader String := fun cs =>
  match cs with
  | c :: rest =>
    if c = double || c = single then
      (readLine c fuel rest).map fun (ds, rest) => (String.ofList ds, rest)
    else
      let bare := cs.takeWhile isBare
      if bare.isEmpty then none else some (String.ofList bare, cs.dropWhile isBare)
  | [] => none

/-- A dotted key, with blanks around its parts: all parts but the last, and the last. -/
def readKey (size : Nat) : Nat → Reader (List String × String)
  | 0, _ => none
  | fuel + 1, cs => do
    let (part, cs) ← readPart size (skipBlanks cs)
    match skipBlanks cs with
    | '.' :: rest =>
      let ((path, key), rest) ← readKey size fuel rest
      return ((part :: path, key), rest)
    | rest => return (([], part), rest)

/-- How many parts a key can have, and how many arrays and tables can be within each other. -/
def maxDepth : Nat := 79

/-! ### Numbers and times -/

/-- Digits of a kind, with single underscores between them. -/
def readDigits (isDigit : Char → Bool) : Nat → Reader (List Char)
  | 0, _ => none
  | fuel + 1, cs =>
    match cs with
    | c :: rest =>
      if !isDigit c then none
      else
        match rest with
        | '_' :: rest => (readDigits isDigit fuel rest).map fun (ds, rest) => (c :: ds, rest)
        | d :: _ =>
          if isDigit d then (readDigits isDigit fuel rest).map fun (ds, rest) => (c :: ds, rest)
          else some ([c], rest)
        | [] => some ([c], rest)
    | [] => none

/-- A sign, if there is one: whether it is a minus. -/
def readSign : List Char → Bool × List Char
  | '+' :: cs => (false, cs)
  | '-' :: cs => (true, cs)
  | cs => (false, cs)

/-- The digits of a decimal number; a zero at the front stands alone. -/
def readWhole (fuel : Nat) : Reader (List Char) := fun cs =>
  match cs with
  | '0' :: rest => some (['0'], rest)
  | _ => readDigits Text.isDigit fuel cs

def valueOf (base : Nat) (ds : List Char) : Nat :=
  ds.foldl (fun n c => base * n + (Text.hexValue? c).getD 0) 0

/-- An integer to a base other than ten, after its mark. -/
def readBase (fuel base : Nat) : Reader Unit := fun cs => do
  let isDigit := fun c => (Text.hexValue? c).any (· < base)
  let (ds, rest) ← readDigits isDigit fuel cs
  if valueOf base ds ≤ maxInteger then return ((), rest) else none

def readExponent (fuel : Nat) : Reader (Option (Bool × List Char)) := fun cs =>
  match cs with
  | c :: rest =>
    if c = 'e' || c = 'E' then
      let (negative, rest) := readSign rest
      (readDigits Text.isDigit fuel rest).map fun (ds, rest) => (some (negative, ds), rest)
    else some (none, cs)
  | [] => some (none, cs)

/-- Whether a decimal number is too large for a binary one of 64 bits. -/
def isTooLarge (whole fraction : List Char) (exponent : Option (Bool × List Char)) : Bool :=
  let digits := whole ++ fraction
  let n := valueOf 10 digits
  let (negative, e) := match exponent with
    | some (negative, ds) => (negative, valueOf 10 ds)
    | none => (false, 0)
  let limit := (1 <<< 1024) - (1 <<< 970)
  if n = 0 || negative then
    -- A negative exponent must first make up for the digits.
    n ≠ 0 && (if digits.length ≤ e then false else limit * Text.powerOfTen (e + fraction.length) ≤ n)
  else
    let width := 400 + digits.length
    if width < e then true else limit * Text.powerOfTen fraction.length ≤ n * Text.powerOfTen e

/-- A decimal number: an integer in the range of 64 bits, or a number with a fraction or an
exponent that is not too large. -/
def readDecimal (fuel : Nat) : Reader Unit := fun cs => do
  let (negative, cs) := readSign cs
  let (whole, rest) ← readWhole fuel cs
  let (fraction, rest) ← match rest with
    | '.' :: rest => (readDigits Text.isDigit fuel rest).map fun (ds, rest) => (some ds, rest)
    | rest => some (none, rest)
  let (exponent, rest) ← readExponent fuel rest
  if fraction.isNone && exponent.isNone then
    let limit := if negative then maxInteger + 1 else maxInteger
    if valueOf 10 whole ≤ limit then return ((), rest) else none
  else if !negative && isTooLarge whole (fraction.getD []) exponent then none
  else return ((), rest)

def readWord (word : String) : Reader Unit := fun cs =>
  (Text.dropStart? word.toList cs).map fun rest => ((), rest)

def readTwo (first last : Nat) : Reader Nat := fun cs =>
  let digits := cs.take 2
  let n := Text.value digits
  if digits.length = 2 && digits.all Text.isDigit && first ≤ n && n ≤ last then
    some (n, cs.drop 2)
  else none

def readTime : Reader Unit := fun cs => do
  let (_, cs) ← readTwo 0 23 cs
  let (_, cs) ← readWord ":" cs
  let (_, cs) ← readTwo 0 59 cs
  let (_, cs) ← readWord ":" cs
  let (_, cs) ← readTwo 0 60 cs
  match cs with
  | '.' :: c :: rest =>
    if Text.isDigit c then return ((), rest.dropWhile Text.isDigit) else return ((), cs)
  | cs => return ((), cs)

def readOffset : Reader Unit := fun cs =>
  match cs with
  | c :: rest =>
    if c = 'Z' || c = 'z' then some ((), rest)
    else if c = '+' || c = '-' then do
      let (_, rest) ← readTwo 0 23 rest
      let (_, rest) ← readWord ":" rest
      let (_, rest) ← readTwo 0 59 rest
      return ((), rest)
    else some ((), cs)
  | [] => some ((), cs)

def daysIn (year month : Nat) : Nat :=
  if month = 2 then if year % 4 = 0 && (year % 100 ≠ 0 || year % 400 = 0) then 29 else 28
  else if [4, 6, 9, 11].contains month then 30
  else 31

/-- A date, and a time after it if there is one. -/
def readDate : Reader Unit := fun cs => do
  let digits := cs.take 4
  if !(digits.length = 4 && digits.all Text.isDigit) then none
  let (_, cs) ← readWord "-" (cs.drop 4)
  let (month, cs) ← readTwo 1 12 cs
  let (_, cs) ← readWord "-" cs
  let (_, cs) ← readTwo 1 (daysIn (Text.value digits) month) cs
  match cs with
  | c :: rest =>
    if c = 'T' || c = 't' || c = ' ' then
      match readTime rest with
      | some (_, rest) => readOffset rest
      | none => return ((), cs)
    else return ((), cs)
  | [] => return ((), cs)

def beginsDate (cs : List Char) : Bool := (cs.take 4).all Text.isDigit && cs[4]? = some '-'

def beginsTime (cs : List Char) : Bool := (cs.take 2).all Text.isDigit && cs[2]? = some ':'

def readScalar (fuel : Nat) : Reader Unit := fun cs =>
  if beginsDate cs then readDate cs
  else if beginsTime cs then readTime cs
  else
    match cs with
    | '0' :: 'x' :: rest => readBase fuel 16 rest
    | '0' :: 'o' :: rest => readBase fuel 8 rest
    | '0' :: 'b' :: rest => readBase fuel 2 rest
    | 't' :: _ => readWord "true" cs
    | 'f' :: _ => readWord "false" cs
    | _ =>
      let unsigned := (readSign cs).2
      (readWord "inf" unsigned).orElse fun _ => (readWord "nan" unsigned).orElse fun _ =>
        readDecimal fuel cs

/-! ### Values -/

/-- Items with commas between them, up to a closing bracket; a comma may stand before it. -/
def readItems (size : Nat) (read : Reader Item) : Nat → Reader (List Item)
  | 0, _ => none
  | fuel + 1, cs => do
    let cs ← skipLines size cs
    match cs with
    | ']' :: rest => return ([], rest)
    | _ =>
      let (item, cs) ← read cs
      match ← skipLines size cs with
      | ',' :: rest =>
        let (items, rest) ← readItems size read fuel rest
        return (item :: items, rest)
      | ']' :: rest => return ([item], rest)
      | _ => none

/-- Keys and values with commas between them, up to a closing brace. -/
def readPairs (size : Nat) (read : Reader Item) :
    Nat → Reader (List (List String × String × Item))
  | 0, _ => none
  | fuel + 1, cs => do
    let ((path, key), cs) ← readKey size maxDepth cs
    let (_, cs) ← readWord "=" cs
    let (item, cs) ← read (skipBlanks cs)
    match skipBlanks cs with
    | ',' :: rest =>
      let (pairs, rest) ← readPairs size read fuel rest
      return ((path, key, item) :: pairs, rest)
    | '\x7d' :: rest => return ([(path, key, item)], rest)
    | _ => none

/-- A value, with at most `depth` arrays and tables within each other. -/
def readValue (size : Nat) : Nat → Reader Item
  | depth, '[' :: cs =>
    match depth with
    | 0 => none
    | depth + 1 => (readItems size (readValue size depth) size cs).map fun (is, r) => (.array is, r)
  | depth, '\x7b' :: cs =>
    match depth with
    | 0 => none
    | depth + 1 =>
      match skipBlanks cs with
      | '\x7d' :: rest => some (.table .closed [], rest)
      | cs => do
        let (pairs, rest) ← readPairs size (readValue size depth) size cs
        return (.table .closed (← Entries.ofPairs pairs), rest)
  | _, c :: cs =>
    if c = double || c = single then
      (readString size (c :: cs)).map fun (s, rest) => (.string s, rest)
    else (readScalar size (c :: cs)).map fun (_, rest) => (.scalar, rest)
  | _, [] => none

/-! ### Statements -/

/-- A header, after its first bracket. -/
def readHeader (size : Nat) : Reader Statement := fun cs => do
  let (repeats, cs) := match cs with
    | '[' :: rest => (true, rest)
    | cs => (false, cs)
  let ((path, key), cs) ← readKey size maxDepth cs
  let (_, cs) ← readWord (if repeats then "]]" else "]") cs
  return (.header ⟨path, key, repeats⟩, cs)

def readAssignment (size : Nat) : Reader Statement := fun cs => do
  let ((path, key), cs) ← readKey size maxDepth cs
  let (_, cs) ← readWord "=" cs
  let (item, cs) ← readValue size maxDepth (skipBlanks cs)
  return (.value path key item, cs)

def readStatements (size : Nat) : Nat → List Char → Option (List Statement)
  | 0, _ => none
  | fuel + 1, cs =>
    match skipBlanks cs with
    | [] => some []
    | '#' :: rest => (statementEnd? ('#' :: rest)).bind (readStatements size fuel)
    | '\n' :: rest => readStatements size fuel rest
    | '\r' :: rest => (lineEnd? ('\r' :: rest)).bind (readStatements size fuel)
    | '[' :: rest => do
      let (s, rest) ← readHeader size rest
      return s :: (← readStatements size fuel (← statementEnd? rest))
    | cs => do
      let (s, rest) ← readAssignment size cs
      return s :: (← readStatements size fuel (← statementEnd? rest))

/-- Reads a document, which a mark of byte order may stand before. -/
def parse? (s : String) : Option Entries := do
  let cs := s.toList
  let cs := if cs.head? = some '\ufeff' then cs.drop 1 else cs
  let size := cs.length + 1
  Assembly.ofStatements (← readStatements size size cs)

end ReleaseHistory.Toml.Parser
