import ReleaseHistory.Decimal.Shortest
import ReleaseHistory.Json.Basic
import ReleaseHistory.Text.Digits

/-!
# Writing JSON

The compact form has no blanks. The indented form has two spaces a level and one item or member a
line.
-/

namespace ReleaseHistory.Json

/-- Numbers are positional from a hundred-thousandth up to 16 digits before the point, and have a
signed exponent beyond. -/
def realStyle : Decimal.Style where
  scientific := fun point => point < -4 || 16 < point
  plus := "+"

def escape (c : Char) : List Char :=
  if c = '\x22' then ['\\', '\x22']
  else if c = '\\' then ['\\', '\\']
  else if c = '\n' then ['\\', 'n']
  else if c = '\r' then ['\\', 'r']
  else if c = '\t' then ['\\', 't']
  else if c = '\x08' then ['\\', 'b']
  else if c = '\x0c' then ['\\', 'f']
  else if c.toNat < 0x20 then
    ['\\', 'u', '0', '0', Text.hexDigit (c.toNat / 16), Text.hexDigit (c.toNat % 16)]
  else [c]

def quote (s : String) : String :=
  "\x22" ++ String.ofList (s.toList.flatMap escape) ++ "\x22"

def realText (x : Decimal.Binary64) : String := realStyle.text x

mutual

def compact : Json → String
  | .null => "null"
  | .bool b => if b then "true" else "false"
  | .integer n => toString n
  | .real x => realText x
  | .string s => quote s
  | .array items => "[" ++ String.intercalate "," (compactItems items) ++ "]"
  | .object members => "\x7b" ++ String.intercalate "," (compactMembers members) ++ "\x7d"
  | .unreadable => "null"

def compactItems : List Json → List String
  | [] => []
  | j :: js => compact j :: compactItems js

def compactMembers : List (String × Json) → List String
  | [] => []
  | (name, j) :: members => (quote name ++ ":" ++ compact j) :: compactMembers members

end

/-- Lines between brackets, indented by one level more than the brackets. -/
def block (opening closing : String) (level : Nat) (lines : List String) : String :=
  if lines.isEmpty then opening ++ closing
  else
    let indent := fun n => "\n" ++ String.ofList (List.replicate (2 * n) ' ')
    opening ++ String.intercalate "," (lines.map (indent (level + 1) ++ ·)) ++ indent level ++ closing

mutual

def indentedAt (level : Nat) : Json → String
  | .array items => block "[" "]" level (indentedItems (level + 1) items)
  | .object members => block "\x7b" "\x7d" level (indentedMembers (level + 1) members)
  | j => compact j

def indentedItems (level : Nat) : List Json → List String
  | [] => []
  | j :: js => indentedAt level j :: indentedItems level js

def indentedMembers (level : Nat) : List (String × Json) → List String
  | [] => []
  | (name, j) :: members =>
    (quote name ++ ": " ++ indentedAt level j) :: indentedMembers level members

end

def indented (j : Json) : String := indentedAt 0 j

end ReleaseHistory.Json
