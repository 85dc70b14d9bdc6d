import ReleaseHistory.Pattern.Class
import ReleaseHistory.Text.Blank
import ReleaseHistory.Text.Digits

/-!
# Reading patterns

A reader takes the characters left together with what is switched on and the names of groups so far.
What it builds is already free of switches: sets are folded and repetitions have plain bounds. Parts
may be nested only so deep and the whole may be only so large, so each part is built with its depth.
-/

namespace ReleaseHistory.Pattern

open ReleaseHistory.Unicode (Spans)

structure State where
  rest : List Char
  flags : Flags
  groups : List String

/-- A reader; none where the text is no pattern. -/
abbrev Reader := StateT State Option

namespace Reader

def refuse {α : Type} : Reader α := fun _ => none

def peek : Reader (Option Char) := fun s => some (s.rest.head?, s)

def drop (n : Nat) : Reader Unit := modify fun s => { s with rest := s.rest.drop n }

def at_ (cs : List Char) : Reader Bool := fun s => some (s.rest.take cs.length == cs, s)

def accept (cs : List Char) : Reader Bool := do
  if ← at_ cs then
    drop cs.length
    return true
  else return false

def flags : Reader Flags := do return (← get).flags

/-- Blanks and comments, as far as they are passed over, dropped from a list of characters. -/
def dropVerbose : Nat → List Char → List Char
  | 0, cs => cs
  | fuel + 1, cs =>
    match cs with
    | [] => []
    | c :: rest =>
      if Text.isBlank c then dropVerbose fuel rest
      else if c = '#' then dropVerbose fuel (rest.dropWhile (· ≠ '\n'))
      else c :: rest

def skipSpace : Reader Unit :=
  modify fun s =>
    if s.flags.verbose then { s with rest := dropVerbose s.rest.length s.rest } else s

/-- Passes over a character and the blanks after it; whether anything is left. -/
def advance : Reader Bool := do
  drop 1
  skipSpace
  return !(← get).rest.isEmpty

def need (b : Bool) : Reader Unit := if b then return () else refuse

def next : Reader Char := do
  match ← peek with
  | some c => return c
  | none => refuse

def some? {α : Type} (a : Option α) : Reader α := fun s => a.map (·, s)

end Reader

open Reader

/-! ### Single characters and sets outside brackets -/

/-- What an escape or a plain character stands for. A byte is a character that was written as two
hexadecimal digits, which counts where Unicode is off. -/
inductive Primitive
  | literal (c : Nat) (isByte : Bool)
  | set (s : Spans)
  | look (l : Look)
  | dot

def isMeta (c : Char) : Bool := "\\.+*?()|[]\x7b\x7d^$#&-~".toList.contains c

def isEscapable (c : Char) : Bool :=
  isMeta c || (c.toNat ≤ 0x7f && !c.isAlphanum && c ≠ '<' && c ≠ '>')

def isScalar (n : Nat) : Bool := n < 0xd800 || (0xdfff < n && n ≤ Unicode.maxCodePoint)

def readHexDigits : Nat → List Char → Reader (List Char)
  | 0, digits => return digits.reverse
  | n + 1, digits => do
    if !digits.isEmpty then need (← advance)
    let c ← next
    need (Text.hexValue? c).isSome
    readHexDigits n (c :: digits)

def readHexBraces : Nat → List Char → Reader (List Char)
  | 0, _ => refuse
  | fuel + 1, digits => do
    need (← advance)
    let c ← next
    if c = '\x7d' then return digits.reverse
    need (Text.hexValue? c).isSome
    readHexBraces fuel (c :: digits)

/-- Reads a character written by its number, after the letter `kind`. -/
def readHex (kind : Char) : Reader Primitive := do
  need (← advance)
  if (← next) = '\x7b' then
    let digits ← readHexBraces ((← get).rest.length) []
    let _ ← advance
    need !digits.isEmpty
    let n ← some? (Text.hexNumber? digits)
    need (isScalar n)
    return .literal n false
  else
    let width := if kind = 'x' then 2 else if kind = 'u' then 4 else 8
    let digits ← readHexDigits width []
    let _ ← advance
    let n ← some? (Text.hexNumber? digits)
    need (isScalar n)
    return .literal n (kind = 'x')

def readBraces : Nat → List Char → Reader (List Char)
  | 0, _ => refuse
  | fuel + 1, name => do
    need (← advance)
    let c ← next
    if c = '\x7d' then return name.reverse
    readBraces fuel (c :: name)

def readProperty (negated : Bool) : Reader Primitive := do
  need (← advance)
  let c ← next
  if c = '\x7b' then
    let name ← readBraces ((← get).rest.length) []
    drop 1
    return .set (← some? (propertyClass (← flags) negated name))
  else
    need (c ≠ '\\')
    let f ← flags
    let _ ← advance
    need f.unicode
    return .set (← some? ((propertySpans? [c]).bind (f.foldAndNegate negated)))

def wordsFor (f : Flags) : Spans := if f.unicode then wordSpans else asciiWordSpans

def readBoundaryName : Nat → List Char → Reader String
  | 0, _ => refuse
  | fuel + 1, name => do
    let c ← next
    if c = '\x7d' then return String.ofList name.reverse
    need (c.isAlpha || c = '-')
    let _ ← advance
    readBoundaryName fuel (c :: name)

/-- Reads what can follow `\b`. Braces that hold no letters are left to be read as a repetition. -/
def readBoundary : Reader Primitive := do
  let words := wordsFor (← flags)
  let before ← get
  match ← peek with
  | some '\x7b' =>
    need (← advance)
    let c ← next
    if c.isAlpha || c = '-' then
      let name ← readBoundaryName ((← get).rest.length) []
      drop 1
      match name with
      | "start" => return .look (.wordStart words)
      | "end" => return .look (.wordStop words)
      | "start-half" => return .look (.wordStartHalf words)
      | "end-half" => return .look (.wordStopHalf words)
      | _ => refuse
    else
      set before
      return .look (.word words)
  | _ => return .look (.word words)

def readEscape : Reader Primitive := do
  drop 1
  let c ← next
  let f ← flags
  if Text.isDigit c then refuse
  else if c = 'x' || c = 'u' || c = 'U' then readHex c
  else if c = 'p' || c = 'P' then readProperty (c = 'P')
  else
    drop 1
    if "dswDSW".toList.contains c then return .set (← some? (letterClass f c))
    else if isEscapable c then return .literal c.toNat false
    else
      match c with
      | 'a' => return .literal 0x07 false
      | 'f' => return .literal 0x0c false
      | 't' => return .literal 0x09 false
      | 'n' => return .literal 0x0a false
      | 'r' => return .literal 0x0d false
      | 'v' => return .literal 0x0b false
      | 'A' => return .look .start
      | 'z' => return .look .stop
      | 'b' => readBoundary
      | 'B' => return .look (.notWord (wordsFor f))
      | '<' => return .look (.wordStart (wordsFor f))
      | '>' => return .look (.wordStop (wordsFor f))
      | _ => refuse

def readPrimitive : Reader Primitive := do
  let c ← next
  let f ← flags
  match c with
  | '\\' => readEscape
  | '.' => drop 1; return .dot
  | '^' =>
    drop 1
    return .look (if !f.multiLine then .start else if f.returnLines then .returnLineStart else .lineStart)
  | '$' =>
    drop 1
    return .look (if !f.multiLine then .stop else if f.returnLines then .returnLineStop else .lineStop)
  | c => drop 1; return .literal c.toNat false

structure Part where
  node : Node
  depth : Nat
  /-- Switches stand between parts and cannot be repeated. -/
  isSwitch : Bool

/-- The node of a single character, an escape, a dot or an anchor. A byte beyond ASCII and, where
Unicode is off, the dot could match half a character. -/
def Primitive.node? (f : Flags) : Primitive → Option Node
  | .literal c isByte =>
    if !f.unicode && isByte && 0x7f < c then none
    else if !f.unicode && 0x7f < c then some (.set [(c, c)])
    else some (.set (f.foldCase [(c, c)]))
  | .set s => some (.set s)
  | .look l => some (.look l)
  | .dot =>
    if !f.unicode then none
    else if f.dotAll then some (.set [(0, Unicode.maxCodePoint)])
    else if f.returnLines then some (.set (Spans.complement [(0x0a, 0x0a), (0x0d, 0x0d)]))
    else some (.set (Spans.complement [(0x0a, 0x0a)]))

/-! ### Sets between brackets -/

/-- An item of a set: a character that could begin a range, or a finished set. -/
def Primitive.span? (f : Flags) : Primitive → Option Spans
  | .literal c isByte => if !f.unicode && 0x7f < c && !isByte then none else some [(c, c)]
  | .set s => some s
  | _ => none

def Primitive.endpoint? (f : Flags) : Primitive → Option Nat
  | .literal c isByte => if !f.unicode && 0x7f < c && !isByte then none else some c
  | _ => none

def readSetItem : Reader Primitive := do
  let c ← next
  if c = '\\' then readEscape
  else
    drop 1
    return .literal c.toNat false

def peekAfter : Reader (Option Char) := fun s =>
  let rest := s.rest.drop 1
  let rest := if s.flags.verbose then dropVerbose rest.length rest else rest
  some (rest.head?, s)

def readSetRange : Reader Spans := do
  let f ← flags
  let first ← readSetItem
  skipSpace
  let c ← next
  let after ← peekAfter
  if c ≠ '-' || after = some ']' || after = some '-' then some? (first.span? f)
  else
    need (← advance)
    let last ← readSetItem
    let lo ← some? (first.endpoint? f)
    let hi ← some? (last.endpoint? f)
    need (lo ≤ hi)
    return [(lo, hi)]

def readBracketClass : Reader (Option Spans) := do
  let before ← get
  let giveUp : Reader (Option Spans) := do
    set before
    return none
  if !(← accept ['[', ':']) then return none
  let negated ← accept ['^']
  let name := (← get).rest.takeWhile (· ≠ ':')
  drop name.length
  if !(← accept [':', ']']) then giveUp
  else
    match bracketClass? (String.ofList name) with
    | none => giveUp
    | some s => return some (← some? ((← flags).foldAndNegate negated s))

inductive SetOp
  | inter
  | diff
  | symmDiff

/-- A set being read: the operand so far and how many items it has, an operation with the operand
before it, and the depths of both. -/
structure OpenSet where
  items : Spans
  count : Nat
  depth : Nat
  pending : Option (SetOp × Spans × Nat)

/-- The depth of an operand: several items are one level deeper than a single one. -/
def OpenSet.operandDepth (o : OpenSet) : Nat := if o.count ≤ 1 then o.depth else o.depth + 1

/-- The set so far, with its depth. Operations go from left to right. -/
def OpenSet.value (f : Flags) (o : OpenSet) : Spans × Nat :=
  match o.pending with
  | none => (Spans.normalize o.items, o.operandDepth)
  | some (op, left, depth) =>
    let a := f.foldCase left
    let b := f.foldCase o.items
    let result := match op with
      | .inter => Spans.inter a b
      | .diff => Spans.diff a b
      | .symmDiff => Spans.symmDiff a b
    (result, 1 + max depth o.operandDepth)

def OpenSet.add (o : OpenSet) (s : Spans) (depth : Nat) : OpenSet :=
  { o with items := o.items ++ s, count := o.count + 1, depth := max o.depth depth }

def OpenSet.operate (f : Flags) (o : OpenSet) (op : SetOp) : OpenSet :=
  let (s, depth) := o.value f
  ⟨[], 0, 0, some (op, s, depth)⟩

/-- Reads the hyphens with which a set can begin. -/
def readHyphens : Nat → OpenSet → Reader OpenSet
  | 0, o => return o
  | fuel + 1, o => do
    if (← next) = '-' then
      need (← advance)
      readHyphens fuel (o.add [(0x2d, 0x2d)] 0)
    else return o

/-- Reads the bracket that opens a set and what may stand only there; whether it is negated. -/
def readSetOpening : Reader (Bool × OpenSet) := do
  need (← advance)
  let negated := (← next) = '^'
  if negated then need (← advance)
  let o ← readHyphens ((← get).rest.length) ⟨[], 0, 0, none⟩
  if o.count = 0 && (← next) = ']' then
    need (← advance)
    return (negated, o.add [(0x5d, 0x5d)] 0)
  else return (negated, o)

mutual

def readSet (fuel : Nat) : Reader (Spans × Nat) :=
  match fuel with
  | 0 => refuse
  | fuel + 1 => do
    let (negated, o) ← readSetOpening
    let (s, depth) ← readSetBody fuel o
    return (← some? ((← flags).foldAndNegate negated s), depth + 1)

def readSetBody (fuel : Nat) (o : OpenSet) : Reader (Spans × Nat) :=
  match fuel with
  | 0 => refuse
  | fuel + 1 => do
    skipSpace
    let f ← flags
    let c ← next
    if c = ']' then
      drop 1
      return o.value f
    else if c = '[' then
      match ← readBracketClass with
      | some s => readSetBody fuel (o.add s 0)
      | none =>
        let (s, depth) ← readSet fuel
        readSetBody fuel (o.add s depth)
    else if ← accept ['&', '&'] then readSetBody fuel (o.operate f .inter)
    else if ← accept ['-', '-'] then readSetBody fuel (o.operate f .diff)
    else if ← accept ['~', '~'] then readSetBody fuel (o.operate f .symmDiff)
    else
      let s ← readSetRange
      readSetBody fuel (o.add s 0)

end

/-! ### Repetitions -/

/-- Repeats the last part of a sequence, which is given last part first. -/
def repeatLast (least : Nat) (most : Option Nat) : List Part → Reader (List Part)
  | [] => refuse
  | p :: ps => do
    need !p.isSwitch
    return ⟨.rep p.node least most, p.depth + 1, false⟩ :: ps

/-- Reads the digits of a number and the blanks that may stand among them. -/
def readDigits : Nat → List Char → Reader (List Char)
  | 0, digits => return digits.reverse
  | fuel + 1, digits => do
    match ← peek with
    | some c =>
      if Text.isDigit c then
        let _ ← advance
        readDigits fuel (c :: digits)
      else return digits.reverse
    | none => return digits.reverse

/-- Reads a number of at most 32 bits with blanks around it; none if there are no digits. -/
def readCount : Reader (Option Nat) := do
  modify fun s => { s with rest := s.rest.dropWhile Text.isBlank }
  let digits ← readDigits ((← get).rest.length) []
  modify fun s => { s with rest := s.rest.dropWhile Text.isBlank }
  skipSpace
  if digits.isEmpty then return none
  need (Text.value digits ≤ 0xffffffff)
  return some (Text.value digits)

def readBounds : Reader (Nat × Option Nat) := do
  need (← advance)
  let least ← readCount
  let c ← next
  let (least, most) ←
    if c = ',' then do
      need (← advance)
      if (← next) = '\x7d' then
        pure (← some? least, none)
      else
        let least ← some? least
        let most ← some? (← readCount)
        pure (least, some most)
    else do
      let n ← some? least
      pure (n, some n)
  need ((← next) = '\x7d')
  let _ ← advance
  let _ ← accept ['?']
  match most with
  | some m => need (least ≤ m)
  | none => return (least, most)
  return (least, most)

/-! ### Groups and switches -/

/-- Reads the switches between a question mark and a colon or parenthesis, each at most once. -/
def readSwitches : Nat → List Char → Reader (List Char)
  | 0, _ => refuse
  | fuel + 1, read => do
    let c ← next
    if c = ':' || c = ')' then
      need (read.head? ≠ some '-')
      return read.reverse
    need ("-imsUuRx".toList.contains c && !read.contains c)
    drop 1
    readSwitches fuel (c :: read)

/-- Applies switches; those after the hyphen are switched off. -/
def Flags.apply (f : Flags) (on : Bool) : List Char → Flags
  | [] => f
  | '-' :: cs => f.apply false cs
  | c :: cs =>
    let f := match c with
      | 'i' => { f with ignoreCase := on }
      | 'm' => { f with multiLine := on }
      | 's' => { f with dotAll := on }
      | 'U' => { f with swapGreed := on }
      | 'u' => { f with unicode := on }
      | 'R' => { f with returnLines := on }
      | _ => { f with verbose := on }
    f.apply on cs

def isGroupChar (isFirst : Bool) (c : Char) : Bool :=
  c = '_' || (Spans.ofTable Unicode.Property.alphabetic).contains c.toNat ||
    (!isFirst && (['.', '[', ']'].contains c ||
      (Unicode.Category.spans fun k =>
        [.decimalNumber, .letterNumber, .otherNumber].contains k).contains c.toNat))

def readGroupName : Reader Unit := do
  let name := (← get).rest.takeWhile (· ≠ '>')
  drop name.length
  need (← accept ['>'])
  match name with
  | [] => refuse
  | c :: cs => need (isGroupChar true c && cs.all (isGroupChar false))
  let name := String.ofList name
  need !(← get).groups.contains name
  modify fun s => { s with groups := name :: s.groups }

/-- Joins the parts of a sequence, given last part first. -/
def joinParts (parts : List Part) : Node × Nat :=
  match parts.reverse with
  | [] => (.empty, 0)
  | [p] => (p.node, p.depth)
  | p :: ps =>
    (ps.foldl (fun node q => .seq node q.node) p.node, 1 + (p :: ps).foldl (max · ·.depth) 0)

mutual

def readChoice (fuel : Nat) : Reader (Node × Nat) :=
  match fuel with
  | 0 => refuse
  | fuel + 1 => do
    let (node, depth) ← readSequence fuel []
    if (← peek) = some '|' then
      drop 1
      let (node, depth) ← readMoreChoices fuel node depth
      return (node, depth + 1)
    else return (node, depth)

def readMoreChoices (fuel : Nat) (node : Node) (depth : Nat) : Reader (Node × Nat) :=
  match fuel with
  | 0 => refuse
  | fuel + 1 => do
    let (other, otherDepth) ← readSequence fuel []
    let node := Node.choice node other
    let depth := max depth otherDepth
    if (← peek) = some '|' then
      drop 1
      readMoreChoices fuel node depth
    else return (node, depth)

/-- Reads the parts of a sequence; those read so far are given last part first. -/
def readSequence (fuel : Nat) (parts : List Part) : Reader (Node × Nat) :=
  match fuel with
  | 0 => refuse
  | fuel + 1 => do
    skipSpace
    match ← peek with
    | none => return joinParts parts
    | some ')' => return joinParts parts
    | some '|' => return joinParts parts
    | some '(' => readSequence fuel ((← readGroup fuel) :: parts)
    | some '[' =>
      let (s, depth) ← readSet fuel
      readSequence fuel (⟨.set s, depth, false⟩ :: parts)
    | some '\x7b' =>
      need !parts.isEmpty
      let (least, most) ← readBounds
      readSequence fuel (← repeatLast least most parts)
    | some c =>
      if c = '?' || c = '*' || c = '+' then
        drop 1
        let _ ← accept ['?']
        let least := if c = '+' then 1 else 0
        let most := if c = '?' then some 1 else none
        readSequence fuel (← repeatLast least most parts)
      else
        let node ← some? ((← readPrimitive).node? (← flags))
        readSequence fuel (⟨node, 0, false⟩ :: parts)

/-- Reads a group, or switches that stand alone. -/
def readGroup (fuel : Nat) : Reader Part :=
  match fuel with
  | 0 => refuse
  | fuel + 1 => do
    drop 1
    skipSpace
    for ahead in [['?', '='], ['?', '!'], ['?', '<', '='], ['?', '<', '!']] do
      need !(← at_ ahead)
    let outer ← flags
    if ← accept ['?', 'P', '<'] then readGroupName
    else if ← accept ['?', '<'] then readGroupName
    else if ← accept ['?'] then
      let switches ← readSwitches ((← get).rest.length + 1) []
      let closing ← next
      drop 1
      modify fun s => { s with flags := s.flags.apply true switches }
      if closing = ')' then
        need !switches.isEmpty
        return ⟨.empty, 0, true⟩
    let (node, depth) ← readChoice fuel
    need (← accept [')'])
    modify fun s => { s with flags := outer }
    return ⟨node, depth + 1, false⟩

end

/-! ### Size -/

/-- How deep the parts of a pattern may be nested. -/
def maxDepth : Nat := 250

/-- How many states a pattern may have. -/
def maxStates : Nat := 10 * 1024 * 1024 / 32

/-- The number of states of a pattern, by which its size is measured. -/
def Node.states : Node → Nat
  | .empty => 1
  | .set s => if s.all (·.2 ≤ 0x7f) then 1 else s.length
  | .look _ => 1
  | .seq a b => a.states + b.states
  | .choice a b => a.states + b.states + 1
  | .rep body least most =>
    match most with
    | some m => body.states * max least m + (m - least)
    | none => body.states * max least 1 + 1

def parse? (s : String) : Option Node := do
  let cs := s.toList
  let start : State := ⟨cs, {}, []⟩
  let ((node, depth), rest) ← (readChoice (3 * cs.length + 3)).run start
  if rest.rest.isEmpty && depth ≤ maxDepth && node.states ≤ maxStates then some node else none

end ReleaseHistory.Pattern
