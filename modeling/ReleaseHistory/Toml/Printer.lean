import ReleaseHistory.Decimal.Shortest
import ReleaseHistory.Toml.Text

/-!
# Writing configuration text

A document is written as sections. A table gets a header when it has plain values of its own or is
empty, an array of nothing but tables gets one header for each, and all else is written in line.
Blank lines stand before every header but the first line of the text. No value is refused: dates and
times out of their ranges, which have no text, cannot be made.
-/

namespace ReleaseHistory.Toml

/-- Numbers are written without exponent. -/
def realStyle : Decimal.Style where
  scientific := fun _ => false
  plus := ""

mutual

def inline : Toml → String
  | .string s => Text.value s
  | .integer n => toString n
  | .real x => realStyle.text x
  | .boolean b => if b then "true" else "false"
  | .datetime d => d.text
  | .array items => "[" ++ String.intercalate ", " (inlineItems items) ++ "]"
  | .table entries =>
    if entries.isEmpty then "\x7b\x7d"
    else "\x7b " ++ String.intercalate ", " (inlineEntries entries) ++ " \x7d"

def inlineItems : List Toml → List String
  | [] => []
  | v :: vs => inline v :: inlineItems vs

def inlineEntries : List (String × Toml) → List String
  | [] => []
  | (k, v) :: rest => (Text.key k ++ " = " ++ inline v) :: inlineEntries rest

end

/-- Whether a value is written as sections of its own, as an array of tables. -/
def isTableArray : Toml → Bool
  | .array items => !items.isEmpty && items.all isTable
  | _ => false

/-- What kind of header a section has. -/
inductive Header
  | root
  | table
  | item
  deriving DecidableEq

/-- A section: its header, its path and the lines of its plain values. -/
structure Section where
  header : Header
  path : List String
  lines : List String
  /-- Whether the section stands for a table without entries. -/
  isEmpty : Bool

def plainLines (t : Table) : List String :=
  (t.filter fun e => !e.2.isTable && !e.2.isTableArray).map fun e =>
    Text.key e.1 ++ " = " ++ e.2.inline

mutual

def valueSections (path : List String) : Toml → List Section
  | .table entries => tableSections .table path entries
  | .array items => if (Toml.array items).isTableArray then itemSections path items else []
  | _ => []

def tableSections (header : Header) (path : List String) (t : List (String × Toml)) :
    List Section :=
  ⟨header, path, plainLines t, t.isEmpty⟩ :: entrySections path t

def itemSections (path : List String) : List Toml → List Section
  | [] => []
  | .table entries :: rest => tableSections .item path entries ++ itemSections path rest
  | _ :: rest => itemSections path rest

def entrySections (path : List String) : List (String × Toml) → List Section
  | [] => []
  | (k, v) :: rest => valueSections (path ++ [k]) v ++ entrySections path rest

end

/-- The header line of a section; none for the root, and none for a table with sections below it
and no values of its own. -/
def Section.headerLine? (s : Section) : Option String :=
  let path := String.intercalate "." (s.path.map Text.key)
  match s.header with
  | .root => none
  | .item => some ("[[" ++ path ++ "]]")
  | .table => if s.lines.isEmpty && !s.isEmpty then none else some ("[" ++ path ++ "]")

/-- Writes sections after a text that is empty or not. -/
def writeSections (first : Bool) : List Section → String
  | [] => ""
  | s :: rest =>
    let body := String.join (s.lines.map (· ++ "\n"))
    match s.headerLine? with
    | none => body ++ writeSections (first && s.lines.isEmpty) rest
    | some header => (if first then "" else "\n") ++ header ++ "\n" ++ body ++ writeSections false rest

def write (t : Table) : String := writeSections true (tableSections .root [] t)

end ReleaseHistory.Toml
