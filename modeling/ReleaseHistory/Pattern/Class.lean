import ReleaseHistory.Pattern.Basic
import ReleaseHistory.Unicode.CaseFold
import ReleaseHistory.Unicode.Script
import ReleaseHistory.Unicode.ScriptExtension

/-!
# Sets of characters with names

The sets that a pattern can name: digits, blanks and characters of words, the classes between
brackets and colons, and properties of characters.
-/

namespace ReleaseHistory.Pattern

open ReleaseHistory.Unicode (Spans)

/-- What a pattern has switched on where it is read. -/
structure Flags where
  ignoreCase : Bool := false
  multiLine : Bool := false
  dotAll : Bool := false
  swapGreed : Bool := false
  unicode : Bool := true
  returnLines : Bool := false
  verbose : Bool := false

/-- The greatest member of the domain of sets: a byte where Unicode is off. -/
def Flags.domainTop (f : Flags) : Nat := if f.unicode then Unicode.maxCodePoint else 0xff

def Flags.complement (f : Flags) (s : Spans) : Spans :=
  Spans.inter (Spans.complement s) [(0, f.domainTop)]

/-- All characters like those of a set, where case is ignored. -/
def Flags.foldCase (f : Flags) (s : Spans) : Spans :=
  if !f.ignoreCase then Spans.normalize s
  else if f.unicode then Unicode.CaseFold.close s
  else Unicode.CaseFold.closeAscii s

/-- A finished set. Where Unicode is off, bytes beyond ASCII cannot be matched on their own. -/
def Flags.finish (f : Flags) (s : Spans) : Option Spans :=
  if f.unicode || s.all (·.2 ≤ 0x7f) then some s else none

/-- Folds the case of a set and then takes its complement, as asked. -/
def Flags.foldAndNegate (f : Flags) (negated : Bool) (s : Spans) : Option Spans :=
  let s := f.foldCase s
  f.finish (if negated then f.complement s else s)

def letterClass (f : Flags) (letter : Char) : Option Spans :=
  let base : Spans :=
    if letter.toLower = 'd' then
      if f.unicode then Unicode.Category.spans (· == .decimalNumber) else [(0x30, 0x39)]
    else if letter.toLower = 's' then
      if f.unicode then Spans.ofTable Unicode.Property.whiteSpace else [(0x09, 0x0d), (0x20, 0x20)]
    else if f.unicode then wordSpans else asciiWordSpans
  f.finish (if letter.isUpper then f.complement base else base)

def bracketClass? (name : String) : Option Spans :=
  [("alnum", [(0x30, 0x39), (0x41, 0x5a), (0x61, 0x7a)]), ("alpha", [(0x41, 0x5a), (0x61, 0x7a)]),
    ("ascii", [(0, 0x7f)]), ("blank", [(0x09, 0x09), (0x20, 0x20)]),
    ("cntrl", [(0, 0x1f), (0x7f, 0x7f)]), ("digit", [(0x30, 0x39)]), ("graph", [(0x21, 0x7e)]),
    ("lower", [(0x61, 0x7a)]), ("print", [(0x20, 0x7e)]),
    ("punct", [(0x21, 0x2f), (0x3a, 0x40), (0x5b, 0x60), (0x7b, 0x7e)]),
    ("space", [(0x09, 0x0d), (0x20, 0x20)]), ("upper", [(0x41, 0x5a)]), ("word", asciiWordSpans),
    ("xdigit", [(0x30, 0x39), (0x41, 0x46), (0x61, 0x66)])].lookup name

/-! ### Properties -/

/-- A name without regard to case, blanks, hyphens, underscores and a leading `is`. -/
def normalizeName (name : List Char) : String :=
  let cs := name.map Char.toLower
  let (isStart, cs) := match cs with
    | 'i' :: 's' :: rest => (true, rest)
    | cs => (false, cs)
  let kept := cs.filter fun c => c ≠ ' ' && c ≠ '_' && c ≠ '-' && c.toNat ≤ 0x7f
  if isStart && kept = ['c'] then "isc" else String.ofList kept

/-- The general categories, and groups of them, by their names. -/
def categoryNames : List (List String × (Unicode.Category → Bool)) :=
  let one := fun (names : List String) (c : Unicode.Category) =>
    (names, fun (d : Unicode.Category) => d == c)
  let group := fun (names : List String) (initial : Char) =>
    (names, fun (d : Unicode.Category) => d.abbreviation.toList.head? == some initial)
  [one ["cc", "control", "cntrl"] .control, one ["cf", "format"] .format,
    one ["cn", "unassigned"] .unassigned, one ["co", "privateuse"] .privateUse,
    one ["cs", "surrogate"] .surrogate, one ["ll", "lowercaseletter"] .lowercaseLetter,
    one ["lm", "modifierletter"] .modifierLetter, one ["lo", "otherletter"] .otherLetter,
    one ["lt", "titlecaseletter"] .titlecaseLetter,
    one ["lu", "uppercaseletter"] .uppercaseLetter, one ["mc", "spacingmark"] .spacingMark,
    one ["me", "enclosingmark"] .enclosingMark, one ["mn", "nonspacingmark"] .nonspacingMark,
    one ["nd", "decimalnumber", "digit"] .decimalNumber, one ["nl", "letternumber"] .letterNumber,
    one ["no", "othernumber"] .otherNumber,
    one ["pc", "connectorpunctuation"] .connectorPunctuation,
    one ["pd", "dashpunctuation"] .dashPunctuation,
    one ["pe", "closepunctuation"] .closePunctuation,
    one ["pf", "finalpunctuation"] .finalPunctuation,
    one ["pi", "initialpunctuation"] .initialPunctuation,
    one ["po", "otherpunctuation"] .otherPunctuation,
    one ["ps", "openpunctuation"] .openPunctuation, one ["sc", "currencysymbol"] .currencySymbol,
    one ["sk", "modifiersymbol"] .modifierSymbol, one ["sm", "mathsymbol"] .mathSymbol,
    one ["so", "othersymbol"] .otherSymbol, one ["zl", "lineseparator"] .lineSeparator,
    one ["zp", "paragraphseparator"] .paragraphSeparator,
    one ["zs", "spaceseparator"] .spaceSeparator,
    group ["c", "other"] 'C', group ["l", "letter"] 'L', group ["m", "mark", "combiningmark"] 'M',
    group ["n", "number"] 'N', group ["p", "punctuation", "punct"] 'P',
    group ["s", "symbol"] 'S', group ["z", "separator"] 'Z',
    (["lc", "casedletter"], fun c => [.lowercaseLetter, .titlecaseLetter, .uppercaseLetter].contains c),
    (["any"], fun _ => true), (["assigned"], fun c => c != .unassigned)]

def categorySpans? (name : String) : Option Spans :=
  if name = "ascii" then some [(0, 0x7f)]
  else (categoryNames.find? (·.1.contains name)).map (Unicode.Category.spans ·.2)

/-- The characters with a property that is named alone: a property that they have or have not, a
general category, or a script. -/
def propertySpans? (name : List Char) : Option Spans :=
  let name := normalizeName name
  Unicode.Property.find? name <|> categorySpans? name <|> Unicode.Script.find? name

def propertyValueSpans? (property value : List Char) : Option Spans :=
  let property := normalizeName property
  let value := normalizeName value
  if ["gc", "generalcategory", "category"].contains property then categorySpans? value
  else if ["sc", "script"].contains property then Unicode.Script.find? value
  else if ["scx", "scriptextensions"].contains property then Unicode.ScriptExtension.find? value
  else none

def splitAtText (sep : List Char) : List Char → Option (List Char × List Char)
  | [] => none
  | c :: cs =>
    if (c :: cs).take sep.length = sep then some ([], (c :: cs).drop sep.length)
    else (splitAtText sep cs).map fun (before, after) => (c :: before, after)

def propertyClass (f : Flags) (negated : Bool) (name : List Char) : Option Spans := do
  if !f.unicode then none
  match splitAtText ['!', '='] name with
  | some (property, value) => f.foldAndNegate (!negated) (← propertyValueSpans? property value)
  | none =>
    match splitAtText [':'] name <|> splitAtText ['='] name with
    | some (property, value) => f.foldAndNegate negated (← propertyValueSpans? property value)
    | none => f.foldAndNegate negated (← propertySpans? name)

end ReleaseHistory.Pattern
