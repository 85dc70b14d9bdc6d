import ReleaseHistory.Proofs.Git.Behind
import ReleaseHistory.Proofs.Text.Merge

/-!
# What a merge makes of each path

A merge without conflicts takes at each path what one side has made of it, or puts the lines of both
together. Only a path that would be a directory in what comes out is left out, and one that a file
may have been moved to or from.
-/

namespace ReleaseHistory.Git

namespace Snapshot

variable {s base ours theirs : Snapshot} {path below : String} {text : Option String} {byLines : Prop}

/-- What can be made of a path that three snapshots hold texts at, or none. Only where both sides have
a text of their own the texts are merged, line by line if nothing else is asked for. -/
inductive Settles (byLines : Prop) (base ours theirs : Option String) : Option String → Prop
  | whole {text : Option String} : Text.Takes base ours theirs text →
      Settles byLines base ours theirs text
  | merged {a b text : String} : ours ≠ base → theirs ≠ base → ours ≠ theirs → ours = some a →
      theirs = some b →
        (byLines → ∃ lines, Text.Joins (Text.Diff.linesOf (base.getD "")).toList
          (Text.Diff.linesOf a).toList (Text.Diff.linesOf b).toList lines ∧ text = String.join lines) →
          Settles byLines base ours theirs (some text)

/-- A side cannot have moved a file to a path or away from it: the path is there before and after, or
at neither time, or no file is gone, or none is new. -/
def Still (base side : Snapshot) (path : String) : Prop :=
  (base.get? path).isSome = (side.get? path).isSome ∨
    (∀ other, (base.get? other).isSome = true → (side.get? other).isSome = true) ∨
    ∀ other, (side.get? other).isSome = true → (base.get? other).isSome = true

/-- A snapshot in which each path is settled between two sides that is no directory and that no file
was moved to or from. -/
def Combines (byLines : Prop) (base ours theirs merged : Snapshot) : Prop :=
  ∀ path, Still base ours path → Still base theirs path →
    (∀ below, (merged.get? below).isSome = true → isAbove path below = false) →
      Settles byLines (base.get? path) (ours.get? path) (theirs.get? path) (merged.get? path)

/-- A text that is merged is merged line by line. -/
theorem joins_of_mergeTexts {base ours theirs : String}
    (h : Contest.mergeTexts base ours theirs = .settled text) :
    ∃ merged, Text.Joins (Text.Diff.linesOf base).toList (Text.Diff.linesOf ours).toList
      (Text.Diff.linesOf theirs).toList merged ∧ text = some (String.join merged) := by
  unfold Contest.mergeTexts at h
  dsimp only at h
  split_ifs at h with hbinary hclean
  obtain ⟨merged, hjoins, htext⟩ := Text.Merge.joins_of_isClean hclean
  exact ⟨merged, hjoins, by rw [← htext]; exact (Contest.Outcome.settled.inj h).symm⟩

theorem settles_of_resolve {c : Contest} (h : c.resolve = .settled text) :
    Settles byLines c.base c.ours c.theirs text := by
  unfold Contest.resolve at h
  split_ifs at h with hsame hours
  · cases h
    rw [Bool.or_eq_true, decide_eq_true_eq, decide_eq_true_eq] at hsame
    rcases hsame with heq | heq
    · exact .whole (.both heq)
    · exact .whole (.ours heq)
  · cases h
    exact .whole (.theirs hours)
  · rw [Bool.or_eq_true, decide_eq_true_eq, decide_eq_true_eq, not_or] at hsame
    split at h
    · rename_i a b ha hb
      obtain ⟨merged, hjoins, rfl⟩ := joins_of_mergeTexts h
      exact .merged hours hsame.2 hsame.1 ha hb fun _ => ⟨merged, hjoins, rfl⟩
    · cases h

/-! ### Paths that are left out -/

theorem isAbove_trans {lower : String} (h : isAbove path below = true)
    (hlower : isAbove below lower = true) : isAbove path lower = true := by
  rw [isAbove_iff] at h hlower ⊢
  exact h.trans ((List.prefix_append _ _).trans hlower)

theorem get?_dropDirectories (s : Snapshot) (path : String) : (dropDirectories s).get? path =
    if s.any (fun entry => isAbove path entry.1) then none else s.get? path := by
  rw [dropDirectories, Snapshot.get?,
    FileTree.lookup_filter fun p => !s.any fun entry => isAbove p entry.1]
  cases s.any fun entry => isAbove path entry.1 <;> rfl

/-- A path is left out only if a path below it is not: the longest one is no directory itself. -/
theorem exists_below_of_dropped {entry : String × String} (hentry : entry ∈ s)
    (habove : isAbove path entry.1 = true) :
    ∃ below, isAbove path below = true ∧ ((dropDirectories s).get? below).isSome = true := by
  have hmem : entry ∈ s.filter fun e => isAbove path e.1 := List.mem_filter.2 ⟨hentry, habove⟩
  cases hmax : (s.filter fun e => isAbove path e.1).argmax fun e => e.1.length with
  | none =>
    rw [List.argmax_eq_none.1 hmax] at hmem
    cases hmem
  | some last =>
    obtain ⟨hlast, hbelow⟩ := List.mem_filter.1 (List.argmax_mem hmax)
    have hdeepest : (s.any fun e => isAbove last.1 e.1) = false := by
      rw [List.any_eq_false]
      intro e he hdeeper
      have hin : e ∈ s.filter fun e => isAbove path e.1 :=
        List.mem_filter.2 ⟨he, isAbove_trans hbelow hdeeper⟩
      have hle := List.le_of_mem_argmax (f := fun e : String × String => e.1.length) hin hmax
      have hlt := length_lt_of_isAbove hdeeper
      omega
    refine ⟨last.1, hbelow, ?_⟩
    rw [get?_dropDirectories, hdeepest]
    exact FileTree.lookup_isSome_of_mem (List.mem_map_of_mem hlast)

/-! ### Merges without conflicts -/

theorem outcomes_of_no_conflicts (h : (merge base ours theirs).conflicts = []) :
    outcomes base ours theirs = (contests base ours theirs).map (fun c => (c.path, c.resolve)) ∧
      ∀ c ∈ contests base ours theirs, ∃ text, c.resolve = .settled text := by
  rw [merge_conflicts, List.filterMap_eq_nil_iff] at h
  have hsettled : ∀ c ∈ contests base ours theirs,
      (writtenDirectories (contests base ours theirs)).contains c.path = false ∧
        ∃ text, c.resolve = .settled text := by
    intro c hc
    have hout := h _ (List.mem_map_of_mem hc)
    dsimp only at hout
    split at hout
    · rename_i text htext
      split at htext
      · cases htext
      · rename_i hdirectory
        exact ⟨by simpa using hdirectory, text, htext⟩
    · cases hout
  refine ⟨List.map_congr_left fun c hc => ?_, fun c hc => (hsettled c hc).2⟩
  rw [(hsettled c hc).1]
  rfl

theorem eq_of_mem_contests {c d : Contest} (hc : c ∈ contests base ours theirs)
    (hd : d ∈ contests base ours theirs) (hpath : c.path = d.path) : c = d := by
  obtain ⟨hcBase, hcOurs, hcTheirs⟩ := mem_contests hc
  obtain ⟨hdBase, hdOurs, hdTheirs⟩ := mem_contests hd
  cases c
  cases d
  simp_all

theorem get?_contested (h : (merge base ours theirs).conflicts = []) {c : Contest}
    (hc : c ∈ contests base ours theirs) (htext : c.resolve = .settled text) :
    ((outcomes base ours theirs).foldl putOutcome (unchanged base ours theirs)).get? c.path = text := by
  have hpath : c.path ∈ (contests base ours theirs).map (·.path) := List.mem_map_of_mem hc
  rw [(outcomes_of_no_conflicts h).1]
  apply get?_foldl_putOutcome
  · intro o ho hkey
    obtain ⟨d, hd, rfl⟩ := List.mem_map.1 ho
    rw [eq_of_mem_contests hd hc hkey, htext]
    rfl
  · rw [get?_unchanged, if_pos hpath, List.map_map]
    exact .inr ⟨rfl, hpath⟩

theorem get?_uncontested (h : path ∉ (contests base ours theirs).map (·.path)) :
    ((outcomes base ours theirs).foldl putOutcome (unchanged base ours theirs)).get? path =
      ours.get? path := by
  apply get?_foldl_putOutcome
  · intro o ho hkey
    obtain ⟨d, hd, rfl⟩ := List.mem_map.1 ho
    exact absurd (List.mem_map.2 ⟨d, hd, hkey⟩) h
  · left
    rw [get?_unchanged, if_neg h]

theorem combines_merge (h : (merge base ours theirs).conflicts = []) :
    Combines byLines base ours theirs (merge base ours theirs).snapshot := by
  intro path _ _ hleaf
  rw [merge_snapshot] at hleaf ⊢
  have hkept : ¬(((outcomes base ours theirs).foldl putOutcome (unchanged base ours theirs)).any
      fun entry => isAbove path entry.1) = true := by
    rw [List.any_eq_true]
    rintro ⟨entry, hentry, habove⟩
    obtain ⟨below, hbelow, hsome⟩ := exists_below_of_dropped hentry habove
    rw [hleaf below hsome] at hbelow
    cases hbelow
  rw [get?_dropDirectories, if_neg hkept]
  by_cases hcontested : path ∈ (contests base ours theirs).map (·.path)
  · obtain ⟨c, hc, rfl⟩ := List.mem_map.1 hcontested
    obtain ⟨text, htext⟩ := (outcomes_of_no_conflicts h).2 c hc
    obtain ⟨hbase, hours, htheirs⟩ := mem_contests hc
    rw [get?_contested h hc htext, ← hbase, ← hours, ← htheirs]
    exact settles_of_resolve htext
  · have hsame := not_not.1 fun hne => hcontested (mem_contests_of_ne hne)
    rw [get?_uncontested hcontested]
    exact .whole (.ours (hsame.1.trans hsame.2).symm)

end Snapshot

namespace History

/-- A snapshot that combines the files of two commits. What they are compared with are the files of
the only commit at which their lines of history meet, if there is one, and none if they do not meet. -/
def Merges (byLines : Prop) (h : History) (a b : Nat) (merged : Snapshot) : Prop :=
  ∃ base, (∀ n, (∀ m, h.IsBase a b m ↔ m = n) → base = h.snapshot n) ∧
    ((∀ n, ¬h.IsBase a b n) → base = []) ∧
    Snapshot.Combines byLines base (h.snapshot a) (h.snapshot b) merged

theorem merges_merge {h : History} (hs : h.Sound) {a b : Nat} {byLines : Prop}
    (hclean : (h.merge a b).conflicts = []) : h.Merges byLines a b (h.merge a b).snapshot := by
  refine ⟨_, fun n hn => baseOf_eq_snapshot hs hn _, fun hnone => ?_, Snapshot.combines_merge hclean⟩
  have hbases : h.mergeBases a [b] = [] := by
    rw [List.eq_nil_iff_forall_not_mem]
    exact fun n hn => hnone n ((mem_mergeBases_iff hs).1 hn)
  simp only [baseOf, List.nil_append, hbases]

end History

end ReleaseHistory.Git
