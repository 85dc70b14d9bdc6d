import ReleaseHistory.Text.Blank

/-!
# Configuration documents

A document is a list of statements: headers, which say where the following values belong, and
values with dotted keys. Put together they make a table. A table can be spread over several
statements, but it can be opened by one header only, and not both by a header and by dotted keys.
-/

namespace ReleaseHistory.Toml

/-- How a table came to be. -/
inductive Origin
  /-- By a header of its own. -/
  | header
  /-- As a part of the names in headers. -/
  | implied
  /-- By dotted keys. -/
  | dotted
  /-- As a value, to which nothing can be added. -/
  | closed
  deriving DecidableEq, Repr

/-- An item of a document. Of scalars that are no strings only the kind is kept. -/
inductive Item
  | string (s : String)
  | scalar
  | array (items : List Item)
  | table (origin : Origin) (entries : List (String × Item))
  /-- Tables that share a header with two brackets. -/
  | tables (items : List Item)

abbrev Entries := List (String × Item)

namespace Entries

def put (key : String) (item : Item) : Entries → Entries
  | [] => [(key, item)]
  | (k, i) :: rest => if k = key then (key, item) :: rest else (k, i) :: put key item rest

/-- Changes the table at the end of a path. Tables on the way that are not there are made with an
origin. -/
def change (made : Origin) (f : Origin → Entries → Option Entries) :
    List String → Origin → Entries → Option Entries
  | [], origin, es => f origin es
  | key :: path, _, es =>
    match es.lookup key with
    | none => (change made f path made []).map fun sub => es ++ [(key, .table made sub)]
    | some (.table origin sub) =>
      -- dotted keys do not reach into a table that has a header
      if origin = .closed || (made = .dotted && origin = .header) then none
      else (change made f path origin sub).map fun sub => put key (.table origin sub) es
    -- where tables share a header, the way goes through the last
    | some (.tables items) =>
      match items.getLast? with
      | some (.table origin sub) =>
        (change made f path origin sub).map fun sub =>
          put key (.tables (items.dropLast ++ [.table origin sub])) es
      | _ => none
    | some _ => none

def assign (path : List String) (key : String) (item : Item) (es : Entries) : Option Entries :=
  change .dotted (fun origin es =>
    if decide (origin = .dotted) == path.isEmpty || (es.lookup key).isSome then none
    else some (es ++ [(key, item)])) path .header es

def ofPairs (pairs : List (List String × String × Item)) : Option Entries :=
  pairs.foldlM (fun es (path, key, item) => assign path key item es) []

end Entries

/-! ### Statements -/

/-- A header by its path and its last key. -/
structure Heading where
  path : List String
  key : String
  /-- Whether it has two brackets and opens one of several tables. -/
  repeats : Bool
  deriving DecidableEq, Repr

inductive Statement
  | value (path : List String) (key : String) (item : Item)
  | header (h : Heading)

/-- A document as far as it was read: what is complete, and the table that is open. -/
structure Assembly where
  complete : Entries
  header : Option Heading
  entries : Entries

namespace Assembly

def start : Assembly := ⟨[], none, []⟩

def finish (a : Assembly) : Option Entries :=
  match a.header with
  | none => some a.entries
  | some h =>
    let table := Item.table .header a.entries
    Entries.change .implied (fun _ es =>
      if h.repeats then
        match es.lookup h.key with
        | none => some (es ++ [(h.key, .tables [table])])
        | some (.tables items) => some (Entries.put h.key (.tables (items ++ [table])) es)
        | some _ => none
      else some (Entries.put h.key table es)) h.path .header a.complete

/-- The table at the end of a path, through the last of several tables. -/
def lookup? : List String → Entries → Option Item
  | [], es => some (.table .header es)
  | key :: path, es =>
    match es.lookup key with
    | some (.table _ sub) => if path.isEmpty then es.lookup key else lookup? path sub
    | some (.tables items) =>
      if path.isEmpty then es.lookup key
      else
        match items.getLast? with
        | some (.table _ sub) => lookup? path sub
        | _ => none
    | item => if path.isEmpty then item else none

/-- Opens the table of a header. What headers below it have put there stays. -/
def openTable (a : Assembly) (h : Heading) : Option Assembly := do
  let complete ← a.finish
  match lookup? (h.path ++ [h.key]) complete with
  | none => return ⟨complete, some h, []⟩
  | some (.table .implied entries) => if h.repeats then none else return ⟨complete, some h, entries⟩
  | some (.tables _) => if h.repeats then return ⟨complete, some h, []⟩ else none
  | some _ => none

def add (a : Assembly) : Statement → Option Assembly
  | .value path key item => (Entries.assign path key item a.entries).map fun es =>
    { a with entries := es }
  | .header h => a.openTable h

def ofStatements (ss : List Statement) : Option Entries := do (← ss.foldlM add start).finish

end Assembly

end ReleaseHistory.Toml
