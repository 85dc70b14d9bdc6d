import ReleaseHistory.Decimal.Binary64
import ReleaseHistory.Toml.Datetime

/-!
# Configuration values

A configuration value is a scalar, an array or a table. A table is a list of keys and values in the
order of the keys, each key once; `Table.insert` keeps that order.
-/

namespace ReleaseHistory

inductive Toml
  | string (s : String)
  | integer (n : Int)
  | real (x : Decimal.Binary64)
  | boolean (b : Bool)
  | datetime (d : Toml.Datetime)
  | array (items : List Toml)
  | table (entries : List (String × Toml))

namespace Toml

def maxInteger : Nat := 0x7fffffffffffffff

/-- Keys and values in the order of the keys. -/
abbrev Table := List (String × Toml)

namespace Table

def get? (key : String) (t : Table) : Option Toml := t.lookup key

/-- Gives a key a value, in place of an earlier one. -/
def insert (key : String) (v : Toml) : Table → Table
  | [] => [(key, v)]
  | (k, w) :: rest =>
    if key = k then (key, v) :: rest
    else if key < k then (key, v) :: (k, w) :: rest
    else (k, w) :: insert key v rest

/-- A table from keys and values; the last value of a key counts. -/
def ofList (entries : List (String × Toml)) : Table :=
  entries.foldl (fun t (k, v) => t.insert k v) []

end Table

def isTable : Toml → Bool
  | .table _ => true
  | _ => false

mutual

/-- Equality of values; the two zeros are equal numbers. -/
def same : Toml → Toml → Bool
  | .string a, .string b => a == b
  | .integer a, .integer b => a == b
  | .real a, .real b => a.sameValue b
  | .boolean a, .boolean b => a == b
  | .datetime a, .datetime b => a == b
  | .array a, .array b => sameItems a b
  | .table a, .table b => sameEntries a b
  | _, _ => false

def sameItems : List Toml → List Toml → Bool
  | [], [] => true
  | a :: as, b :: bs => same a b && sameItems as bs
  | _, _ => false

def sameEntries : List (String × Toml) → List (String × Toml) → Bool
  | [], [] => true
  | (k, a) :: as, (l, b) :: bs => k == l && same a b && sameEntries as bs
  | _, _ => false

end

end Toml

end ReleaseHistory
