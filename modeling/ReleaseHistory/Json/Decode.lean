import ReleaseHistory.Json.Basic

/-!
# Typed reading of JSON

A decoder reads a value of a type from a JSON value. It may enter only so many arrays and objects
within each other; what it passes over does not count. A record can be given as an object, in which
unknown members are passed over and a known one must not repeat, or as an array of its fields in
order, of which the last can be missing if they have defaults.
-/

namespace ReleaseHistory.Json

/-- How many arrays and objects within each other a decoder may enter. -/
def defaultLevels : Nat := 127

/-- Reads a value, entering at most as many levels as given. -/
abbrev Decoder (α : Type) := Nat → Json → Option α

mutual

/-- Whether everything in a value can be read, within a number of levels. -/
def isReadable (levels : Nat) : Json → Bool
  | .unreadable => false
  | .array items =>
    match levels with
    | 0 => false
    | levels + 1 => areReadable levels items
  | .object members =>
    match levels with
    | 0 => false
    | levels + 1 => membersReadable levels members
  | _ => true

def areReadable (levels : Nat) : List Json → Bool
  | [] => true
  | j :: js => isReadable levels j && areReadable levels js

def membersReadable (levels : Nat) : List (String × Json) → Bool
  | [] => true
  | (_, j) :: ms => isReadable levels j && membersReadable levels ms

def depth : Json → Nat
  | .array items => depthItems items + 1
  | .object members => depthMembers members + 1
  | _ => 0

def depthItems : List Json → Nat
  | [] => 0
  | j :: js => max (depth j) (depthItems js)

def depthMembers : List (String × Json) → Nat
  | [] => 0
  | (_, j) :: ms => max (depth j) (depthMembers ms)

end

namespace Decode

def string : Decoder String := fun _ j =>
  match j with
  | .string s => some s
  | _ => none

def bool : Decoder Bool := fun _ j =>
  match j with
  | .bool b => some b
  | _ => none

def nullable {α : Type} (d : Decoder α) : Decoder (Option α) := fun levels j =>
  match j with
  | .null => some none
  | j => (d levels j).map some

def list {α : Type} (d : Decoder α) : Decoder (List α) := fun levels j =>
  match levels, j with
  | levels + 1, .array items => items.mapM (d levels)
  | _, _ => none

def members {α : Type} (d : Decoder α) : Decoder (List (String × α)) := fun levels j =>
  match levels, j with
  | levels + 1, .object ms => ms.mapM fun (name, j) => (d levels j).map (name, ·)
  | _, _ => none

/-- Reads a name out of a list: the name itself, or an object whose one member has the name and is
null. -/
def choice {α : Type} (choices : List (String × α)) : Decoder α := fun levels j =>
  match levels, j with
  | _, .string s => choices.lookup s
  | _ + 1, .object [(s, .null)] => choices.lookup s
  | _, _ => none

/-- The only member of a name; `none` if the name repeats, `some none` if there is no such member. -/
def once (name : String) (ms : List (String × Json)) : Option (Option Json) :=
  match ms.filter (·.1 = name) with
  | [] => some none
  | [(_, j)] => some (some j)
  | _ => none

/-- Reads the fields of a record, in the order of their names. A field that is not there is `none`
in the list. -/
def record (names : List String) : Decoder (List (Option Json) × Nat) := fun levels j =>
  match levels, j with
  | levels + 1, .object ms => do
    let fields ← names.mapM (once · ms)
    return (fields, levels)
  | levels + 1, .array items =>
    if items.length ≤ names.length then
      some (items.map some ++ List.replicate (names.length - items.length) none, levels)
    else none
  | _, _ => none

def required {α : Type} (d : Decoder α) (levels : Nat) (field : Option Json) : Option α :=
  field.bind (d levels)

def defaulted {α : Type} (d : Decoder α) (default : α) (levels : Nat) (field : Option Json) :
    Option α :=
  match field with
  | none => some default
  | some j => d levels j

end Decode

end ReleaseHistory.Json
