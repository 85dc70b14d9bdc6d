import ReleaseHistory.Text.Script

/-!
# Merging texts

Two texts that come from a common base are merged line by line. Where only one side changes the
base, its lines are taken. Where both change it at one place in different ways, there is a
conflict, which is made as small as the lines allow that both sides share.
-/

namespace ReleaseHistory.Text.Merge

open Script (Hunk align parts weave)

/-- A part of a merged text. -/
inductive Piece
  /-- Lines that both sides have. -/
  | shared (lines : List String)
  /-- Lines that one side has in the place of the base, or both. -/
  | taken (lines : List String)
  | conflict (ours theirs : List String)
  deriving DecidableEq

/-! ### Hunks -/

def isSettled (h : Hunk) : Bool :=
  h.mine.isQuiet || h.other.isQuiet || h.mine.after = h.other.after

/-- A conflict without the lines that both sides share. -/
def refine (ours theirs : List String) : List Piece :=
  let change := fun (h : Hunk) =>
    if h.other.isQuiet then [] else [.conflict h.other.before h.other.after]
  weave (fun text => [.shared [text]]) change
    (align (Script.keepAll ours) (Script.between ours theirs))

def pieces (h : Hunk) : List Piece :=
  if h.mine = h.other then [.shared h.mine.after]
  else if h.mine.isQuiet then [.taken h.other.after]
  else if h.other.isQuiet || h.mine.after = h.other.after then [.taken h.mine.after]
  else refine h.mine.after h.other.after

/-! ### Conflicts -/

/-- The conflict after at most three lines that both sides have: these lines, its sides, and what
follows it. -/
def nextConflict? : List Piece → Option (List String × List String × List String × List Piece)
  | .conflict ours theirs :: rest => some ([], ours, theirs, rest)
  | .shared lines :: rest =>
    match nextConflict? rest with
    | some (more, next) => if (lines ++ more).length ≤ 3 then some (lines ++ more, next) else none
    | none => none
  | _ => none

/-- Joins conflicts that have little between them. -/
def joinConflicts : List Piece → List Piece
  | [] => []
  | .conflict ours theirs :: rest =>
    let rest := joinConflicts rest
    match nextConflict? rest with
    | some (lines, ours', theirs', rest) =>
      .conflict (ours ++ lines ++ ours') (theirs ++ lines ++ theirs') :: rest
    | none => .conflict ours theirs :: rest
  | p :: rest => p :: joinConflicts rest

/-! ### The merged text -/

def closed (lines : List String) : String :=
  let text := String.join lines
  if lines.isEmpty || text.endsWith "\n" then text else text ++ "\n"

def markWidth : Nat := 9

def markLine (c : Char) (label : String) : String :=
  String.ofList (List.replicate markWidth c) ++ label ++ "\n"

/-- The lines of both sides of a conflict, with marks around them. -/
def conflictText (ours theirs : List String) : String :=
  markLine '<' " Temporary merge branch 1" ++ closed ours ++ markLine '=' "" ++ closed theirs ++
    markLine '>' " Temporary merge branch 2"

def Piece.text : Piece → String
  | .shared lines => String.join lines
  | .taken lines => String.join lines
  | .conflict ours theirs => conflictText ours theirs

/-- A merged text, and whether there are no conflicts in it. -/
structure Merged where
  text : String
  isClean : Bool
  deriving DecidableEq, Repr

/-- The changes of both sides, cut where neither changes the base. -/
def hunks (base ours theirs : String) : Hunk × List (String × Hunk) :=
  let b := (Diff.linesOf base).toList
  align (Script.between b (Diff.linesOf ours).toList) (Script.between b (Diff.linesOf theirs).toList)

def merge (base ours theirs : String) : Merged :=
  let hunks := hunks base ours theirs
  let found := joinConflicts (weave (fun text => [.shared [text]]) pieces hunks)
  ⟨String.join (found.map Piece.text), (parts hunks).all isSettled⟩

end ReleaseHistory.Text.Merge
