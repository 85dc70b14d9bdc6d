import ReleaseHistory.Decimal.Binary64

/-!
# JSON values

A JSON value as read: members of an object keep their order and may repeat. What is well formed but
has no value, such as a number beyond all doubles or a string with half a surrogate pair, is kept as
`unreadable`, since it does no harm where nobody looks at it.
-/

namespace ReleaseHistory

inductive Json
  | null
  | bool (b : Bool)
  | integer (n : Int)
  | real (x : Decimal.Binary64)
  | string (s : String)
  | array (items : List Json)
  | object (members : List (String × Json))
  | unreadable

namespace Json

/-- A member of an object by its name; the last of several. -/
def member? (name : String) : Json → Option Json
  | .object members => (members.reverse.find? fun m => m.1 = name).map (·.2)
  | _ => none

mutual

/-- The objects of a value with one member a name, the last one, in the order of the names. -/
def sorted : Json → Json
  | .array items => .array (sortedItems items)
  | .object members => .object (sortedMembers members)
  | j => j

def sortedItems : List Json → List Json
  | [] => []
  | j :: js => sorted j :: sortedItems js

/-- The members of an object in order. A later member takes the place of an earlier one. -/
def sortedMembers : List (String × Json) → List (String × Json)
  | [] => []
  | (name, j) :: members =>
    let rest := sortedMembers members
    if rest.any (·.1 = name) then rest else insertMember name (sorted j) rest

def insertMember (name : String) (j : Json) : List (String × Json) → List (String × Json)
  | [] => [(name, j)]
  | (other, k) :: rest =>
    if name < other then (name, j) :: (other, k) :: rest
    else (other, k) :: insertMember name j rest

end

end Json

end ReleaseHistory
