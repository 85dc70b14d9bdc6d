import ReleaseHistory.Text.Diff

/-!
# Edit scripts

An edit script goes through the lines of a text and says which of them are kept and which lines are
added before each and at the end. Two scripts for the same lines can be cut at the lines that both
keep.
-/

namespace ReleaseHistory.Text

/-- How some lines become others. -/
inductive Script
  /-- The lines that are added at the end. -/
  | stop (added : List String)
  /-- The lines that are added before a line, and whether that is kept. -/
  | line (added : List String) (text : String) (kept : Bool) (rest : Script)
  deriving DecidableEq

namespace Script

/-- The lines that a script goes through. -/
def before : Script → List String
  | stop _ => []
  | line _ text _ rest => text :: rest.before

/-- The lines that they become. -/
def after : Script → List String
  | stop added => added
  | line added text kept rest => added ++ (if kept then text :: rest.after else rest.after)

def isQuiet : Script → Bool
  | stop added => added.isEmpty
  | line added _ kept rest => added.isEmpty && kept && rest.isQuiet

/-! ### The script of two texts -/

/-- Goes through some lines, all of which are kept or none, before a script. -/
def pass (kept : Bool) (lines : List String) (s : Script) : Script :=
  lines.foldr (fun text s => line [] text kept s) s

def add (added : List String) : Script → Script
  | stop more => stop (added ++ more)
  | line more text kept rest => line (added ++ more) text kept rest

def keepAll (lines : List String) : Script := pass true lines (stop [])

def replaceAll (a b : List String) : Script := (pass false a (stop [])).add b

/-- The script of some changes of the lines from `i` on. -/
def ofChanges : List Diff.Change → Nat → List String → List String → Script
  | [], _, a, _ => keepAll a
  | c :: cs, i, a, b =>
    let same := a.take (c.first₁ - i)
    let a := a.drop same.length
    let b := b.drop same.length
    let rest := ofChanges cs (c.first₁ + c.count₁) (a.drop c.count₁) (b.drop c.count₂)
    pass true same ((pass false (a.take c.count₁) rest).add (b.take c.count₂))

def between (a b : List String) : Script :=
  let s := ofChanges (Diff.changes a.toArray b.toArray) 0 a b
  -- changes that do not lead there are never found; as this is seen here, no proof depends on the
  -- search for them
  if s.before = a && s.after = b then s else replaceAll a b

/-! ### Two scripts side by side -/

/-- What two scripts make of the same lines, none of which both keep. -/
structure Hunk where
  mine : Script
  other : Script

/-- Cuts two scripts for the same lines at each line that both keep. The results are the first parts,
and each of those lines with the parts behind it. -/
def align : Script → Script → Hunk × List (String × Hunk)
  | line added text kept s, line added' text' kept' t =>
    let (h, rest) := align s t
    if kept && kept' then (⟨stop added, stop added'⟩, (text, h) :: rest)
    else (⟨line added text kept h.mine, line added' text' kept' h.other⟩, rest)
  | s, t => (⟨s, t⟩, [])

def parts (hunks : Hunk × List (String × Hunk)) : List Hunk := hunks.1 :: hunks.2.map (·.2)

/-- Puts together what is made of the parts of two scripts and of the lines between them. -/
def weave {α : Type} (line : String → List α) (part : Hunk → List α) :
    Hunk × List (String × Hunk) → List α
  | (h, rest) => part h ++ rest.flatMap fun (text, h) => line text ++ part h

end Script

end ReleaseHistory.Text
