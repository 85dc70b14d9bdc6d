import ReleaseHistory.Text.Blank

/-!
# Differences between two texts

Two texts are compared line by line. The result says which lines of either are changed; the others
are the same on both sides, in the same order. A shortest way from one text to the other is looked
for in the middle, from both ends at the same time. Lines that are frequent on the other side are
left out of the search where they stand among lines that have no match there, and changed lines are
at last moved down to where they can join others.
-/

namespace ReleaseHistory.Text.Diff

/-- The lines of a list of characters, each with its line feed. -/
def splitLines : List Char → List (List Char)
  | [] => []
  | c :: cs =>
    if c = '\n' then [c] :: splitLines cs
    else
      match splitLines cs with
      | [] => [[c]]
      | line :: lines => (c :: line) :: lines

/-- The lines of a text, each with its line feed; the last may have none. -/
def linesOf (s : String) : Array String := ((splitLines s.toList).map String.ofList).toArray

abbrev Marks := Array Bool

/-- Whether a line is marked; none is before the first and after the last. -/
def Marks.has (m : Marks) (i : Nat) : Bool := m.getD i false

def Marks.hasBefore (m : Marks) (i : Nat) : Bool := 0 < i && m.has (i - 1)

/-- Numbers that are the same for equal lines of both texts only. -/
def number (a b : Array String) : Array Nat × Array Nat :=
  let lines := (a ++ b).toList.eraseDups
  let indexOf := fun s => lines.idxOf s
  (a.map indexOf, b.map indexOf)

/-! ### The lines that are searched -/

/-- How a line of one text occurs in the other. -/
inductive Frequency
  | never
  | seldom
  | often
  deriving DecidableEq

def roughRoot : Nat → Nat → Nat
  | 0, _ => 1
  | fuel + 1, n => if n = 0 then 1 else 2 * roughRoot fuel (n / 4)

/-- How a line occurs, by the number of times; `limit` is where frequent lines begin. -/
def frequency (limit count : Nat) : Frequency :=
  if count = 0 then .never else if limit ≤ count then .often else .seldom

def window : Nat := 100

/-- The lines at a frequent line that have no match and those that are frequent, up to one that is
neither. -/
def countRun (fs : List Frequency) : Nat × Nat :=
  let run := (fs.take window).takeWhile (· ≠ .seldom)
  (run.countP (· = .never), run.countP (· = .often))

/-- Whether a frequent line is left out, by the lines before it, the nearest first, and those after
it. -/
def isNoise (before after : List Frequency) : Bool :=
  let (unmatched₁, frequent₁) := countRun before
  let (unmatched₂, frequent₂) := countRun after
  let unmatched := unmatched₁ + unmatched₂
  let frequent := frequent₁ + frequent₂ + 2
  unmatched₁ ≠ 0 && unmatched₂ ≠ 0 && frequent * 4 < frequent + unmatched

def searched : List Frequency → List Frequency → List Bool
  | _, [] => []
  | before, f :: after =>
    (f = .seldom || (f = .often && !isNoise before after)) :: searched (f :: before) after

/-- The places of the lines of a text that are searched, between two ends. `size` is the number of
all its lines. -/
def searchedPlaces (mine other : Array Nat) (first last : Nat) : List Nat :=
  let limit := min (roughRoot mine.size mine.size) 1024
  let between := (List.range (last - first)).map (first + ·)
  let fs := between.map fun i => frequency limit (other.toList.count (mine.getD i 0))
  (between.zip (searched [] fs)).filterMap fun (i, keep) => if keep then some i else none

/-! ### The search -/

/-- How far a path has come on each diagonal, in lines of the first text. The diagonal of a point is
the line of the first text less that of the second; `zero` is the place of diagonal 0. -/
structure Reach where
  zero : Nat
  values : Array Int

def Reach.new (width : Nat) (height : Nat) : Reach :=
  ⟨height + 1, Array.replicate (width + height + 3) 0⟩

def Reach.get (r : Reach) (d : Int) : Int := r.values.getD (r.zero + d).toNat 0

def Reach.set (r : Reach) (d i : Int) : Reach :=
  { r with values := r.values.setIfInBounds (r.zero + d).toNat i }

/-- A part of both texts: lines from `first` on and before `last`. -/
structure Box where
  first₁ : Nat
  last₁ : Nat
  first₂ : Nat
  last₂ : Nat

def same (a b : Array Nat) (i j : Nat) : Bool :=
  match a[i]?, b[j]? with
  | some x, some y => x = y
  | _, _ => false

/-- How many lines are the same from two places on, within a box. -/
def runForward (a b : Array Nat) (box : Box) : Nat → Nat → Nat → Nat
  | 0, _, _ => 0
  | fuel + 1, i, j =>
    if i < box.last₁ && j < box.last₂ && same a b i j then
      runForward a b box fuel (i + 1) (j + 1) + 1
    else 0

/-- How many lines are the same before two places, within a box. -/
def runBackward (a b : Array Nat) (box : Box) : Nat → Nat → Nat → Nat
  | 0, _, _ => 0
  | fuel + 1, i, j =>
    if box.first₁ < i && box.first₂ < j && same a b (i - 1) (j - 1) then
      runBackward a b box fuel (i - 1) (j - 1) + 1
    else 0

/-- The search from both ends: how far each has come, on the diagonals from `low` to `high`. -/
structure Search where
  forward : Reach
  low : Int
  high : Int
  backward : Reach
  lowBack : Int
  highBack : Int

def beyond : Int := 0x4000000000000000

/-- The diagonals from `high` down to `low`, two apart. -/
def diagonals (low high : Int) : List Int :=
  (List.range ((high - low) / 2 + 1).toNat).map fun (k : Nat) => high - 2 * (k : Int)

/-- One step of the forward path on each of some diagonals, until it meets the backward path. -/
def stepForward (a b : Array Nat) (box : Box) (odd : Bool) (s : Search) :
    List Int → Reach → Reach × Option (Nat × Nat)
  | [], r => (r, none)
  | d :: ds, r =>
    let i := if r.get (d - 1) ≥ r.get (d + 1) then r.get (d - 1) + 1 else r.get (d + 1)
    let run := runForward a b box (box.last₁ - box.first₁) i.toNat (i - d).toNat
    let i := i + run
    let r := r.set d i
    if odd && s.lowBack ≤ d && d ≤ s.highBack && s.backward.get d ≤ i then
      (r, some (i.toNat, (i - d).toNat))
    else stepForward a b box odd s ds r

/-- One step of the backward path on each of some diagonals, until it meets the forward path. -/
def stepBackward (a b : Array Nat) (box : Box) (odd : Bool) (s : Search) :
    List Int → Reach → Reach × Option (Nat × Nat)
  | [], r => (r, none)
  | d :: ds, r =>
    let i := if r.get (d - 1) < r.get (d + 1) then r.get (d - 1) else r.get (d + 1) - 1
    let run := runBackward a b box (box.last₁ - box.first₁) i.toNat (i - d).toNat
    let i := i - run
    let r := r.set d i
    if !odd && s.low ≤ d && d ≤ s.high && i ≤ s.forward.get d then
      (r, some (i.toNat, (i - d).toNat))
    else stepBackward a b box odd s ds r

/-- Widens the diagonals by one on each side; at the edge of the box they become narrower. A new
diagonal begins at `start`. -/
def widen (least most : Int) (start : Int) (r : Reach) (low high : Int) : Reach × Int × Int :=
  let (r, low) := if least < low then (r.set (low - 2) start, low - 1) else (r, low + 1)
  let (r, high) := if high < most then (r.set (high + 2) start, high + 1) else (r, high - 1)
  (r, low, high)

/-- Searches until both paths meet. -/
def meet (a b : Array Nat) (box : Box) (odd : Bool) (least most : Int) :
    Nat → Search → Option (Nat × Nat)
  | 0, _ => none
  | fuel + 1, s =>
    let (r, low, high) := widen least most (-1) s.forward s.low s.high
    let (r, point) := stepForward a b box odd s (diagonals low high) r
    let s := { s with forward := r, low := low, high := high }
    match point with
    | some p => some p
    | none =>
      let (r, low, high) := widen least most beyond s.backward s.lowBack s.highBack
      let (r, point) := stepBackward a b box odd s (diagonals low high) r
      let s := { s with backward := r, lowBack := low, highBack := high }
      match point with
      | some p => some p
      | none => meet a b box odd least most fuel s

def middle (a b : Array Nat) (box : Box) : Option (Nat × Nat) :=
  let least := (box.first₁ : Int) - box.last₂
  let most := (box.last₁ : Int) - box.first₂
  let start := (box.first₁ : Int) - box.first₂
  let finish := (box.last₁ : Int) - box.last₂
  let new := Reach.new a.size b.size
  let s : Search := ⟨new.set start box.first₁, start, start, new.set finish box.last₁, finish, finish⟩
  meet a b box ((start - finish) % 2 ≠ 0) least most (a.size + b.size + 1) s

/-- A box without the lines that are the same at its two ends. -/
def shrink (a b : Array Nat) (box : Box) : Box :=
  let n := runForward a b box (box.last₁ - box.first₁) box.first₁ box.first₂
  let box := { box with first₁ := box.first₁ + n, first₂ := box.first₂ + n }
  let n := runBackward a b box (box.last₁ - box.first₁) box.last₁ box.last₂
  { box with last₁ := box.last₁ - n, last₂ := box.last₂ - n }

def between (first last : Nat) : List Nat := (List.range (last - first)).map (first + ·)

def compare (a b : Array Nat) : Nat → Box → List Nat × List Nat
  | 0, box => (between box.first₁ box.last₁, between box.first₂ box.last₂)
  | fuel + 1, box =>
    let box := shrink a b box
    if box.first₁ = box.last₁ || box.first₂ = box.last₂ then
      (between box.first₁ box.last₁, between box.first₂ box.last₂)
    else
      match middle a b box with
      | none => (between box.first₁ box.last₁, between box.first₂ box.last₂)
      | some (i, j) =>
        let (c₁, c₂) := compare a b fuel { box with last₁ := i, last₂ := j }
        let (d₁, d₂) := compare a b fuel { box with first₁ := i, first₂ := j }
        (c₁ ++ d₁, c₂ ++ d₂)

/-- The changed lines of both texts, by the numbers of their lines, before any of them is moved. -/
def marks (a b : Array Nat) : Marks × Marks :=
  let whole := shrink a b ⟨0, a.size, 0, b.size⟩
  let places₁ := searchedPlaces a b whole.first₁ whole.last₁
  let places₂ := searchedPlaces b a whole.first₂ whole.last₂
  let x := (places₁.map fun i => a.getD i 0).toArray
  let y := (places₂.map fun j => b.getD j 0).toArray
  let (c₁, c₂) := compare x y (x.size + y.size + 1) ⟨0, x.size, 0, y.size⟩
  let unchanged₁ := (between 0 x.size).filter fun k => !c₁.contains k
  let unchanged₂ := (between 0 y.size).filter fun k => !c₂.contains k
  let keep := fun (places : List Nat) (unchanged : List Nat) =>
    unchanged.filterMap fun k => places[k]?
  let mark := fun (first last size : Nat) (kept : List Nat) =>
    ((List.range size).map fun i => first ≤ i && i < last && !kept.contains i).toArray
  (mark whole.first₁ whole.last₁ a.size (keep places₁ unchanged₁),
    mark whole.first₂ whole.last₂ b.size (keep places₂ unchanged₂))

/-! ### Moving changes down -/

/-- A group of changed lines, from `first` on and before `last`; it may be empty. -/
structure Group where
  first : Nat
  last : Nat
  deriving DecidableEq

def endOfRun (m : Marks) : Nat → Nat → Nat
  | 0, i => i
  | fuel + 1, i => if m.has i then endOfRun m fuel (i + 1) else i

def startOfRun (m : Marks) : Nat → Nat → Nat
  | 0, i => i
  | fuel + 1, i => if m.hasBefore i then startOfRun m fuel (i - 1) else i

def groupAt (m : Marks) (first : Nat) : Group := ⟨first, endOfRun m m.size first⟩

def Group.next? (g : Group) (m : Marks) : Option Group :=
  if g.last = m.size then none else some (groupAt m (g.last + 1))

def Group.previous? (g : Group) (m : Marks) : Option Group :=
  if g.first = 0 then none else some ⟨startOfRun m m.size (g.first - 1), g.first - 1⟩

/-- A group one line up, joined with one that it meets there. -/
def slideUp? (lines : Array Nat) (m : Marks) (g : Group) : Option (Marks × Group) :=
  if 0 < g.first && same lines lines (g.first - 1) (g.last - 1) then
    let m := (m.setIfInBounds (g.first - 1) true).setIfInBounds (g.last - 1) false
    some (m, ⟨startOfRun m m.size (g.first - 1), g.last - 1⟩)
  else none

/-- A group one line down, joined with one that it meets there. -/
def slideDown? (lines : Array Nat) (m : Marks) (g : Group) : Option (Marks × Group) :=
  if same lines lines g.first g.last then
    let m := (m.setIfInBounds g.first false).setIfInBounds g.last true
    some (m, ⟨g.first + 1, endOfRun m m.size (g.last + 1)⟩)
  else none

/-- The group that is moved, its marks, and the group at the same place on the other side. -/
structure Slide where
  marks : Marks
  group : Group
  other : Group

/-- Moves a group up as far as it goes. -/
def slideToTop (lines : Array Nat) (otherMarks : Marks) : Nat → Slide → Slide
  | 0, s => s
  | fuel + 1, s =>
    match slideUp? lines s.marks s.group with
    | none => s
    | some (m, g) =>
      slideToTop lines otherMarks fuel ⟨m, g, (s.other.previous? otherMarks).getD s.other⟩

/-- Moves a group down as far as it goes; `aligned` is whether it came by a group of the other
side. -/
def slideToBottom (lines : Array Nat) (otherMarks : Marks) : Nat → Bool → Slide → Bool × Slide
  | 0, aligned, s => (aligned, s)
  | fuel + 1, aligned, s =>
    let aligned := aligned || s.other.first < s.other.last
    match slideDown? lines s.marks s.group with
    | none => (aligned, s)
    | some (m, g) =>
      slideToBottom lines otherMarks fuel aligned ⟨m, g, (s.other.next? otherMarks).getD s.other⟩

/-- Moves a group up and down until it joins no other. The results are its end when it was up, and
whether it came by a group of the other side. -/
def settle (lines : Array Nat) (otherMarks : Marks) : Nat → Slide → Nat × Bool × Slide
  | 0, s => (s.group.last, false, s)
  | fuel + 1, s =>
    let size := s.group.last - s.group.first
    let top := slideToTop lines otherMarks lines.size s
    let (aligned, bottom) := slideToBottom lines otherMarks (lines.size + 1) false top
    if bottom.group.last - bottom.group.first = size then (top.group.last, aligned, bottom)
    else settle lines otherMarks fuel bottom

/-- Moves a group up until it is by a group of the other side. -/
def align (lines : Array Nat) (otherMarks : Marks) : Nat → Slide → Slide
  | 0, s => s
  | fuel + 1, s =>
    if s.other.first < s.other.last then s
    else
      match slideUp? lines s.marks s.group with
      | none => s
      | some (m, g) =>
        align lines otherMarks fuel ⟨m, g, (s.other.previous? otherMarks).getD s.other⟩

/-- Moves the groups of one side, one after the other. -/
def compactFrom (lines : Array Nat) (otherMarks : Marks) : Nat → Slide → Marks
  | 0, s => s.marks
  | fuel + 1, s =>
    let s :=
      if s.group.first = s.group.last then s
      else
        let (top, aligned, s) := settle lines otherMarks (lines.size + 1) s
        if s.group.last ≠ top && aligned then align lines otherMarks lines.size s else s
    match s.group.next? s.marks with
    | none => s.marks
    | some g => compactFrom lines otherMarks fuel ⟨s.marks, g, (s.other.next? otherMarks).getD s.other⟩

def compact (lines : Array Nat) (m otherMarks : Marks) : Marks :=
  compactFrom lines otherMarks (lines.size + 1) ⟨m, groupAt m 0, groupAt otherMarks 0⟩

/-! ### Changes -/

/-- Lines of the first text that lines of the second replace. -/
structure Change where
  first₁ : Nat
  count₁ : Nat
  first₂ : Nat
  count₂ : Nat
  deriving DecidableEq, Repr

def changesFrom (m₁ m₂ : Marks) : Nat → Nat → Nat → List Change
  | 0, _, _ => []
  | fuel + 1, i, j =>
    let k := endOfRun m₁ m₁.size i
    let l := endOfRun m₂ m₂.size j
    let rest :=
      if k < m₁.size && l < m₂.size then changesFrom m₁ m₂ fuel (k + 1) (l + 1) else []
    if i < k || j < l then ⟨i, k - i, j, l - j⟩ :: rest else rest

def changes (a b : Array String) : List Change :=
  let (x, y) := number a b
  let (m₁, m₂) := marks x y
  let m₁ := compact x m₁ m₂
  let m₂ := compact y m₂ m₁
  changesFrom m₁ m₂ (x.size + y.size + 1) 0 0

end ReleaseHistory.Text.Diff
