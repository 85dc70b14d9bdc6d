/-!
# Sets of code points

A set of code points is a list of spans, each with its first and last member, in ascending order. A
table of the standard is written as one text: the differences of the numbers at which membership
changes, in base 36, with blanks between them.
-/

namespace ReleaseHistory.Unicode

def maxCodePoint : Nat := 0x10ffff

/-- Spans of code points, first and last member of each, ascending and apart. -/
abbrev Spans := List (Nat × Nat)

def base36 (c : Char) : Nat :=
  if c.toNat < 'a'.toNat then c.toNat - '0'.toNat else c.toNat - 'a'.toNat + 10

/-- The numbers of a table, as running sums of the differences that it holds. -/
def boundaries (table : String) : List Nat :=
  let step := fun (state : Nat × Nat × List Nat) (c : Char) =>
    let (total, digits, out) := state
    if c = ' ' then (total + digits, 0, (total + digits) :: out)
    else (total, 36 * digits + base36 c, out)
  let (total, digits, out) := table.toList.foldl step (0, 0, [])
  if table.isEmpty then [] else ((total + digits) :: out).reverse

namespace Spans

def ofBoundaries : List Nat → Spans
  | [] => []
  | [first] => [(first, maxCodePoint)]
  | first :: next :: rest => (first, next - 1) :: ofBoundaries rest

def ofTable (table : String) : Spans := ofBoundaries (boundaries table)

def contains (spans : Spans) (n : Nat) : Bool :=
  spans.any fun (lo, hi) => lo ≤ n && n ≤ hi

/-- Joins a span to spans that begin no earlier. -/
def addFront (lo hi : Nat) : Spans → Spans
  | [] => [(lo, hi)]
  | (lo', hi') :: rest => if lo' ≤ hi + 1 then (lo, max hi hi') :: rest else (lo, hi) :: (lo', hi') :: rest

/-- Spans in any order, with overlaps, made ascending and apart. -/
def normalize (spans : Spans) : Spans :=
  let sorted := (spans.filter fun (lo, hi) => lo ≤ hi).mergeSort fun a b =>
    a.1 < b.1 || (a.1 == b.1 && a.2 ≤ b.2)
  merge sorted
where
  /-- Joins ascending spans from the front. -/
  merge : Spans → Spans
    | [] => []
    | [s] => [s]
    | (lo, hi) :: rest => addFrontAll lo hi rest
  /-- Carries the open span along. -/
  addFrontAll (lo hi : Nat) : Spans → Spans
    | [] => [(lo, hi)]
    | (lo', hi') :: rest =>
      if lo' ≤ hi + 1 then addFrontAll lo (max hi hi') rest
      else (lo, hi) :: addFrontAll lo' hi' rest

/-- The code points from `from_` on that are in none of the spans, which are ascending. -/
def gaps (from_ : Nat) : Spans → Spans
  | [] => if from_ ≤ maxCodePoint then [(from_, maxCodePoint)] else []
  | (lo, hi) :: rest =>
    if from_ < lo then (from_, lo - 1) :: gaps (hi + 1) rest else gaps (max from_ (hi + 1)) rest

def complement (spans : Spans) : Spans := gaps 0 (normalize spans)

def union (a b : Spans) : Spans := normalize (a ++ b)

def inter (a b : Spans) : Spans := complement (complement a ++ complement b)

def diff (a b : Spans) : Spans := inter a (complement b)

def symmDiff (a b : Spans) : Spans := union (diff a b) (diff b a)

end Spans

end ReleaseHistory.Unicode
