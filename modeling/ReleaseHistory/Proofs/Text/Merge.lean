import Mathlib
import ReleaseHistory.Text.Merge

/-!
# What a merge of texts takes from which side

The lines of a base, of two sides and of what is merged from them are cut at lines that all of them
have. Between two such lines a change that one side alone makes is taken, and a change that both make
alike; where both change the base in different ways, the merge is not clean.
-/

namespace ReleaseHistory.Text

/-- What is taken where a base has two sides: the one that changes it alone, or what both make of it. -/
inductive Takes {α : Type} (base ours theirs : α) : α → Prop
  | ours : theirs = base → Takes base ours theirs ours
  | theirs : ours = base → Takes base ours theirs theirs
  | both : ours = theirs → Takes base ours theirs ours

/-- Lines that are merged from those of a base and two sides: between lines that none of them changes,
one side is taken. -/
inductive Joins : List String → List String → List String → List String → Prop
  | part {base ours theirs merged : List String} : Takes base ours theirs merged →
      Joins base ours theirs merged
  | line {base ours theirs merged base' ours' theirs' merged' : List String} (text : String) :
      Takes base ours theirs merged → Joins base' ours' theirs' merged' →
        Joins (base ++ text :: base') (ours ++ text :: ours') (theirs ++ text :: theirs')
          (merged ++ text :: merged')

namespace Script

variable {s t : Script} {h : Hunk} {rest : List (String × Hunk)} {a b : List String}

/-! ### The script of two texts -/

@[simp] theorem before_add (added : List String) (s : Script) : (s.add added).before = s.before := by
  cases s <;> rfl

@[simp] theorem after_add (added : List String) (s : Script) :
    (s.add added).after = added ++ s.after := by
  cases s with
  | stop more => rfl
  | line more text kept rest => exact List.append_assoc added more _

@[simp] theorem before_pass (kept : Bool) (lines : List String) (s : Script) :
    (pass kept lines s).before = lines ++ s.before := by
  induction lines with
  | nil => rfl
  | cons text lines ih => exact congrArg (text :: ·) ih

@[simp] theorem after_pass_false (lines : List String) (s : Script) :
    (pass false lines s).after = s.after := by
  induction lines with
  | nil => rfl
  | cons text lines ih => exact ih

theorem between_spec (a b : List String) : (between a b).before = a ∧ (between a b).after = b := by
  unfold between
  dsimp only
  split_ifs with hleads
  · simpa using hleads
  · simp [replaceAll, before, after]

theorem after_eq_before (hs : s.isQuiet = true) : s.after = s.before := by
  induction s with
  | stop added => exact List.isEmpty_iff.1 hs
  | line added text kept rest ih =>
    simp only [isQuiet, Bool.and_eq_true, List.isEmpty_iff] at hs
    obtain ⟨⟨rfl, rfl⟩, hrest⟩ := hs
    exact congrArg (text :: ·) (ih hrest)

/-! ### Two scripts side by side -/

theorem weave_cons {α : Type} (line : String → List α) (part : Hunk → List α) (h h' : Hunk)
    (text : String) (rest : List (String × Hunk)) :
    weave line part (h, (text, h') :: rest) = part h ++ (line text ++ weave line part (h', rest)) := by
  simp [weave]

theorem parts_cons (h h' : Hunk) (text : String) (rest : List (String × Hunk)) :
    parts (h, (text, h') :: rest) = h :: parts (h', rest) :=
  rfl

/-- What is read off two scripts line by line is put together again after they have been cut. -/
theorem weave_align (read : Hunk → List String)
    (lines : List String → List String → String → Bool → Bool → List String)
    (hline : ∀ added added' text kept kept' s t,
      read ⟨line added text kept s, line added' text kept' t⟩ =
        lines added added' text kept kept' ++ read ⟨s, t⟩)
    (hkept : ∀ added added' text,
      lines added added' text true true = read ⟨stop added, stop added'⟩ ++ [text])
    (hst : s.before = t.before) : weave (fun text => [text]) read (align s t) = read ⟨s, t⟩ := by
  induction s generalizing t with
  | stop added =>
    cases t with
    | stop added' => simp [align, weave]
    | line => cases hst
  | line added text kept s ih =>
    cases t with
    | stop => cases hst
    | line added' text' kept' t =>
      obtain ⟨rfl, hrest⟩ := List.cons.inj hst
      rw [align]
      specialize ih hrest
      generalize align s t = hunks at ih ⊢
      obtain ⟨h, rest⟩ := hunks
      dsimp only
      split_ifs with hboth
      · obtain ⟨rfl, rfl⟩ := Bool.and_eq_true_iff.1 hboth
        rw [weave_cons, ih, hline, hkept, List.append_assoc]
      · rw [hline, ← ih]
        exact (congrArg (· ++ _) (hline ..)).trans (List.append_assoc ..)

theorem before_eq_of_mem_parts (hst : s.before = t.before) (hh : h ∈ parts (align s t)) :
    h.mine.before = h.other.before := by
  induction s generalizing t h with
  | stop added =>
    cases t with
    | stop added' =>
      obtain rfl := List.mem_singleton.1 hh
      rfl
    | line => cases hst
  | line added text kept s ih =>
    cases t with
    | stop => cases hst
    | line added' text' kept' t =>
      obtain ⟨rfl, hrest⟩ := List.cons.inj hst
      rw [align] at hh
      specialize @ih t
      generalize align s t = hunks at ih hh
      obtain ⟨first, rest⟩ := hunks
      dsimp only at hh
      split_ifs at hh with hboth
      · rw [parts_cons] at hh
        rcases List.mem_cons.1 hh with rfl | hh
        · rfl
        · exact ih hrest hh
      · rcases List.mem_cons.1 hh with rfl | hh
        · exact congrArg (text :: ·) (ih hrest List.mem_cons_self)
        · exact ih hrest (List.mem_cons_of_mem _ hh)

theorem joins_weave {base ours theirs merged : Hunk → List String}
    {hunks : Hunk × List (String × Hunk)}
    (htakes : ∀ h ∈ parts hunks, Takes (base h) (ours h) (theirs h) (merged h)) :
    Joins (weave (fun text => [text]) base hunks) (weave (fun text => [text]) ours hunks)
      (weave (fun text => [text]) theirs hunks) (weave (fun text => [text]) merged hunks) := by
  obtain ⟨h, rest⟩ := hunks
  induction rest generalizing h with
  | nil => simpa [weave] using Joins.part (htakes h List.mem_cons_self)
  | cons next rest ih =>
    obtain ⟨text, h'⟩ := next
    simp only [weave_cons]
    exact .line text (htakes h List.mem_cons_self) (ih h' fun g hg => htakes g (.tail _ hg))

end Script

namespace Merge

open Script (Hunk align parts weave)

variable {h : Hunk} {base ours theirs : String} {found : Hunk × List (String × Hunk)}

/-! ### Merges without conflicts -/

/-- The lines that come of a hunk without a conflict. -/
def settledLines (h : Hunk) : List String :=
  if h.mine.isQuiet then h.other.after else h.mine.after

theorem takes_of_isSettled (hbase : h.mine.before = h.other.before) (hsettled : isSettled h = true) :
    Takes h.mine.before h.mine.after h.other.after (settledLines h) := by
  unfold settledLines
  split_ifs with hmine
  · exact .theirs (Script.after_eq_before hmine)
  · rw [isSettled, Bool.or_eq_true, Bool.or_eq_true, decide_eq_true_eq] at hsettled
    rcases hsettled with (hmine' | hother) | hsame
    · exact absurd hmine' hmine
    · exact .ours ((Script.after_eq_before hother).trans hbase.symm)
    · exact .both hsame

theorem pieces_of_isSettled (hsettled : isSettled h = true) :
    pieces h = [.shared (settledLines h)] ∨ pieces h = [.taken (settledLines h)] := by
  unfold pieces settledLines
  rw [isSettled, Bool.or_eq_true, Bool.or_eq_true, decide_eq_true_eq] at hsettled
  split_ifs with hsame hmine hmine hother
  · exact .inl (by rw [hsame])
  · exact .inl rfl
  · exact .inr rfl
  · exact .inr rfl
  · simp only [Bool.or_eq_true, decide_eq_true_eq, not_or] at hother
    exact absurd hsettled (by simp [hmine, hother])

/-- What is put together of parts without conflicts has no conflict. -/
theorem parts_of_clean (hclean : ∀ h ∈ parts found, isSettled h = true) :
    (∀ p ∈ weave (fun text => [.shared [text]]) pieces found, ∀ a b, p ≠ .conflict a b) ∧
      String.join ((weave (fun text => [.shared [text]]) pieces found).map Piece.text) =
        String.join (weave (fun text => [text]) settledLines found) := by
  have hpiece : ∀ h ∈ parts found, (∀ p ∈ pieces h, ∀ a b, p ≠ .conflict a b) ∧
      String.join ((pieces h).map Piece.text) = String.join (settledLines h) := by
    intro h hh
    rcases pieces_of_isSettled (hclean h hh) with heq | heq <;> rw [heq] <;>
      simp [Piece.text, String.join_cons]
  obtain ⟨h, rest⟩ := found
  induction rest generalizing h with
  | nil => simpa [weave] using hpiece h List.mem_cons_self
  | cons next rest ih =>
    obtain ⟨text, h'⟩ := next
    obtain ⟨hfirst, htext⟩ := hpiece h List.mem_cons_self
    obtain ⟨hnone, hrest⟩ := ih h' (fun g hg => hclean g (.tail _ hg)) fun g hg => hpiece g (.tail _ hg)
    simp only [Script.weave_cons]
    constructor
    · intro p hp
      rcases List.mem_append.1 hp with hp | hp
      · exact hfirst p hp
      · rcases List.mem_cons.1 hp with rfl | hp
        · exact fun _ _ heq => nomatch heq
        · exact hnone p hp
    · simp [String.join_append, String.join_cons, htext, hrest, Piece.text]

theorem joinConflicts_eq {ps : List Piece} (h : ∀ p ∈ ps, ∀ a b, p ≠ .conflict a b) :
    joinConflicts ps = ps := by
  induction ps with
  | nil => rfl
  | cons p ps ih =>
    specialize ih fun q hq => h q (.tail _ hq)
    cases p with
    | shared lines => exact congrArg _ ih
    | taken lines => exact congrArg _ ih
    | conflict a b => exact absurd rfl (h _ List.mem_cons_self a b)

theorem joins_align {s t : Script} (hst : s.before = t.before)
    (hclean : ∀ h ∈ parts (align s t), isSettled h = true) :
    Joins s.before s.after t.after (weave (fun text => [text]) settledLines (align s t)) := by
  have hjoins := Script.joins_weave fun h hh =>
    takes_of_isSettled (Script.before_eq_of_mem_parts hst hh) (hclean h hh)
  rwa [Script.weave_align (fun h => h.mine.before) (fun _ _ text _ _ => [text])
      (fun _ _ _ _ _ _ _ => rfl) (fun _ _ _ => rfl) hst,
    Script.weave_align (fun h => h.mine.after)
      (fun added _ text kept _ => added ++ if kept then [text] else [])
      (fun _ _ _ kept _ _ _ => by cases kept <;> simp [Script.after]) (fun _ _ _ => rfl) hst,
    Script.weave_align (fun h => h.other.after)
      (fun _ added text _ kept => added ++ if kept then [text] else [])
      (fun _ _ _ _ kept _ _ => by cases kept <;> simp [Script.after]) (fun _ _ _ => rfl) hst]
    at hjoins

/-- A clean merge of texts is one of their lines: a change that one side alone makes is in it. -/
theorem joins_of_isClean (hclean : (merge base ours theirs).isClean = true) :
    ∃ lines, Joins (Diff.linesOf base).toList (Diff.linesOf ours).toList (Diff.linesOf theirs).toList
      lines ∧ (merge base ours theirs).text = String.join lines := by
  obtain ⟨hbefore, hours⟩ :=
    Script.between_spec (Diff.linesOf base).toList (Diff.linesOf ours).toList
  obtain ⟨hbefore', htheirs⟩ :=
    Script.between_spec (Diff.linesOf base).toList (Diff.linesOf theirs).toList
  simp only [merge, List.all_eq_true] at hclean
  have hjoins := joins_align (hbefore.trans hbefore'.symm) hclean
  rw [hbefore, hours, htheirs] at hjoins
  obtain ⟨hnone, htext⟩ := parts_of_clean hclean
  refine ⟨_, hjoins, Eq.trans ?_ htext⟩
  rw [merge, joinConflicts_eq hnone]

end Merge

end ReleaseHistory.Text
