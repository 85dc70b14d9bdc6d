/-!
# Blank characters and lines

The `White_Space` property of Unicode decides what is trimmed from names that a person typed.
Lines end at a line feed, with an optional carriage return before it.
-/

namespace ReleaseHistory.Text

/-- The code points with the property `White_Space`. -/
def isBlank (c : Char) : Bool :=
  let n := c.toNat
  (0x09 ≤ n && n ≤ 0x0d) || n == 0x20 || n == 0x85 || n == 0xa0 || n == 0x1680 ||
    (0x2000 ≤ n && n ≤ 0x200a) || n == 0x2028 || n == 0x2029 || n == 0x202f || n == 0x205f ||
    n == 0x3000

def trim (s : String) : String :=
  String.ofList ((s.toList.dropWhile isBlank).reverse.dropWhile isBlank).reverse

/-- The characters before the first separator and those after it, if there is one. -/
def splitAtFirst (sep : Char) : List Char → List Char × Option (List Char)
  | [] => ([], none)
  | c :: cs =>
    if c = sep then ([], some cs)
    else
      let (before, after) := splitAtFirst sep cs
      (c :: before, after)

/-- Text before the first separator and the text after it, if there is one. -/
def splitOnce (sep : Char) (s : String) : String × Option String :=
  let (before, after) := splitAtFirst sep s.toList
  (String.ofList before, after.map String.ofList)

/-- A separator that does not occur leaves the list whole. -/
theorem splitAtFirst_of_not_mem {sep : Char} {cs : List Char} (h : sep ∉ cs) :
    splitAtFirst sep cs = (cs, none) := by
  induction cs with
  | nil => rfl
  | cons c cs ih =>
    simp only [List.mem_cons, not_or] at h
    simp [splitAtFirst, Ne.symm h.1, ih h.2]

/-- The first separator splits a list into what stands on its two sides. -/
theorem splitAtFirst_append {sep : Char} {cs ds : List Char} (h : sep ∉ cs) :
    splitAtFirst sep (cs ++ sep :: ds) = (cs, some ds) := by
  induction cs with
  | nil => simp [splitAtFirst]
  | cons c cs ih =>
    simp only [List.mem_cons, not_or] at h
    simp [splitAtFirst, Ne.symm h.1, ih h.2]

/-- The parts of a list between separators; always at least one part. -/
def splitAll (sep : Char) : List Char → List (List Char)
  | [] => [[]]
  | c :: cs =>
    if c = sep then [] :: splitAll sep cs
    else
      match splitAll sep cs with
      | [] => [[c]]
      | part :: parts => (c :: part) :: parts

/-- The parts of a text between separators; always at least one part. -/
def splitOn (sep : Char) (s : String) : List String :=
  (splitAll sep s.toList).map String.ofList

def dropReturn (cs : List Char) : List Char :=
  match cs.getLast? with
  | some '\r' => cs.dropLast
  | _ => cs

/-- The first line without its end, empty for the empty text. A carriage return goes with the line
feed that follows it and stays where none does. -/
def firstLine (s : String) : String :=
  match splitAtFirst '\n' s.toList with
  | (line, some _) => String.ofList (dropReturn line)
  | (line, none) => String.ofList line

def lowerAscii (s : String) : String :=
  String.ofList (s.toList.map Char.toLower)

/-- Whether one list starts the other, and what follows it. -/
def dropStart? : List Char → List Char → Option (List Char)
  | [], cs => some cs
  | _ :: _, [] => none
  | p :: ps, c :: cs => if p = c then dropStart? ps cs else none

/-- Replaces every occurrence of a nonempty pattern, from the left, without overlap. -/
def replaceAll (pattern : List Char) (by_ : List Char) (cs : List Char) : List Char :=
  go cs.length cs
where
  /-- `fuel` is the number of characters left. -/
  go : Nat → List Char → List Char
    | 0, cs => cs
    | _ + 1, [] => []
    | fuel + 1, c :: cs =>
      match pattern with
      | [] => c :: cs
      | _ =>
        match dropStart? pattern (c :: cs) with
        | some rest => by_ ++ go fuel rest
        | none => c :: go fuel cs

def replace (pattern replacement s : String) : String :=
  String.ofList (replaceAll pattern.toList replacement.toList s.toList)

end ReleaseHistory.Text
