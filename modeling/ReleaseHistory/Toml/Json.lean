import ReleaseHistory.Json.Decode
import ReleaseHistory.Toml.Value

/-!
# Configuration values as JSON

A date and time has no JSON form of its own: it is an object whose only member has a reserved name
and holds its text. Null and integers beyond 64 bits with sign are no configuration values, and the
keys of a table do not repeat.
-/

namespace ReleaseHistory.Toml

def datetimeKey : String := "$__toml_private_datetime"

mutual

def ofJson (levels : Nat) : Json → Option Toml
  | .bool b => some (.boolean b)
  | .integer n => if n ≤ (maxInteger : Int) then some (.integer n) else none
  | .real x => some (.real x)
  | .string s => some (.string s)
  | .array items =>
    match levels with
    | 0 => none
    | levels + 1 => (ofJsonItems levels items).map .array
  | .object members =>
    match levels with
    | 0 => none
    | levels + 1 =>
      match members with
      | (name, j) :: rest =>
        if name = datetimeKey then
          match j, rest with
          | .string s, [] => (Datetime.parse? s).map .datetime
          | _, _ => none
        else (ofJsonMembers levels [] ((name, j) :: rest)).map .table
      | [] => some (.table [])
  | _ => none

def ofJsonItems (levels : Nat) : List Json → Option (List Toml)
  | [] => some []
  | j :: js => do return (← ofJson levels j) :: (← ofJsonItems levels js)

def ofJsonMembers (levels : Nat) (t : Table) : List (String × Json) → Option Table
  | [] => some t
  | (name, j) :: rest => do
    if (t.get? name).isSome then none
    let v ← ofJson levels j
    ofJsonMembers levels (t.insert name v) rest

end

mutual

def toJson : Toml → Json
  | .string s => .string s
  | .integer n => .integer n
  | .real x => .real x
  | .boolean b => .bool b
  | .datetime d => .object [(datetimeKey, .string d.text)]
  | .array items => .array (toJsonItems items)
  | .table entries => .object (toJsonEntries entries)

def toJsonItems : List Toml → List Json
  | [] => []
  | v :: vs => toJson v :: toJsonItems vs

def toJsonEntries : List (String × Toml) → List (String × Json)
  | [] => []
  | (k, v) :: rest => (k, toJson v) :: toJsonEntries rest

end

end ReleaseHistory.Toml
