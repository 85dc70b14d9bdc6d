import Mathlib
import ReleaseHistory.Proofs.Git.Merge
import ReleaseHistory.Proofs.Text.Split

/-!
# Snapshots that files can show

A snapshot can stand in a directory as it is if its paths are in order, so that none is there twice,
and if no path is that of a directory on the way to another. What is made from a list is in order, and
a merge drops the paths that would be directories.
-/

namespace ReleaseHistory.Git.Snapshot

variable {s t base ours theirs : Snapshot} {path below text : String}

/-- The paths of a snapshot ascend. -/
def Ordered (s : Snapshot) : Prop := s.Pairwise fun e f => e.1 < f.1

/-- A snapshot that can stand in a directory as it is. -/
structure Coherent (s : Snapshot) : Prop where
  ordered : Ordered s
  apart : ∀ e ∈ s, ∀ f ∈ s, Text.splitOn '/' e.1 <+: Text.splitOn '/' f.1 → e.1 = f.1

theorem coherent_nil : Coherent [] where
  ordered := List.Pairwise.nil
  apart := fun _ he => nomatch he

/-- The first path of a coherent snapshot is neither on the way to another one nor behind it. -/
theorem Coherent.head_apart {e : String × String} (h : Coherent (e :: s)) :
    ∀ f ∈ s, ¬Text.splitOn '/' e.1 <+: Text.splitOn '/' f.1 ∧
      ¬Text.splitOn '/' f.1 <+: Text.splitOn '/' e.1 := by
  intro f hf
  have hne : e.1 ≠ f.1 := ne_of_lt (List.rel_of_pairwise_cons h.ordered hf)
  have he := List.mem_cons_self (a := e) (l := s)
  have hf := List.mem_cons_of_mem e hf
  exact ⟨fun hef => hne (h.apart e he f hf hef), fun hfe => hne (h.apart f hf e he hfe).symm⟩

theorem Coherent.tail {e : String × String} (h : Coherent (e :: s)) : Coherent s where
  ordered := List.Pairwise.of_cons h.ordered
  apart := fun e' he f hf => h.apart e' (List.mem_cons_of_mem e he) f (List.mem_cons_of_mem e hf)

/-! ### Order -/

theorem ordered_insert (h : Ordered s) (path text : String) : Ordered (s.insert path text) := by
  induction s with
  | nil => exact List.pairwise_singleton _ _
  | cons first rest ih =>
    obtain ⟨p, t⟩ := first
    obtain ⟨hfirst, hrest⟩ := List.pairwise_cons.1 h
    rw [insert]
    split_ifs with hsame hbelow
    · subst hsame
      exact List.pairwise_cons.2 ⟨hfirst, hrest⟩
    · refine List.pairwise_cons.2 ⟨?_, h⟩
      intro entry hentry
      rcases List.mem_cons.1 hentry with rfl | hentry
      · exact hbelow
      · exact hbelow.trans (hfirst entry hentry)
    · refine List.pairwise_cons.2 ⟨?_, ih hrest⟩
      intro entry hentry
      rcases mem_insert hentry with rfl | hentry
      · exact lt_of_le_of_ne (not_lt.1 hbelow) (Ne.symm hsame)
      · exact hfirst entry hentry

theorem ordered_ofList (entries : List (String × String)) : Ordered (ofList entries) :=
  List.foldlRecOn entries _ List.Pairwise.nil fun _ h entry _ => ordered_insert h entry.1 entry.2

theorem ordered_foldl_putOutcome (h : Ordered s) (os : List (String × Contest.Outcome)) :
    Ordered (os.foldl putOutcome s) := by
  refine List.foldlRecOn os _ h fun s hs o _ => ?_
  unfold putOutcome
  split
  · exact ordered_insert hs _ _
  · exact hs

/-! ### Directories -/

theorem isAbove_iff : isAbove path below = true ↔ path.toList ++ ['/'] <+: below.toList := by
  rw [isAbove, String.startsWith_string_iff, String.toList_append]
  rfl

theorem length_lt_of_isAbove (h : isAbove path below = true) : path.length < below.length := by
  have hlength := (isAbove_iff.1 h).length_le
  rw [List.length_append, List.length_singleton, String.length_toList, String.length_toList] at hlength
  omega

/-- A path whose parts begin another one is that path or a directory on the way to it. -/
theorem eq_or_isAbove
    (h : Text.splitOn '/' path <+: Text.splitOn '/' below) : path = below ∨ isAbove path below = true := by
  rcases Text.eq_or_append_of_splitOn h with rfl | ⟨rest, hrest⟩
  · exact .inl rfl
  · right
    rw [isAbove_iff, hrest]
    exact ⟨rest, by simp⟩

theorem splitOn_prefix_of_isAbove (h : isAbove path below = true) :
    Text.splitOn '/' path <+: Text.splitOn '/' below := by
  obtain ⟨rest, hrest⟩ := isAbove_iff.1 h
  rw [List.append_assoc, List.singleton_append] at hrest
  rw [Text.splitOn, Text.splitOn, ← hrest, Text.splitAll_append, List.map_append]
  exact List.prefix_append _ _

theorem Coherent.not_isAbove {e f : String × String} (h : Coherent s) (he : e ∈ s) (hf : f ∈ s) :
    isAbove e.1 f.1 = false := by
  by_contra hnot
  have habove := Bool.eq_true_of_not_eq_false hnot
  have hlength := length_lt_of_isAbove habove
  rw [h.apart e he f hf (splitOn_prefix_of_isAbove habove)] at hlength
  exact absurd hlength (lt_irrefl _)

theorem coherent_dropDirectories (h : Ordered s) : Coherent (dropDirectories s) where
  ordered := List.Pairwise.filter _ h
  apart := by
    intro e he f hf hbegins
    refine (eq_or_isAbove hbegins).resolve_right fun habove => ?_
    have hkept := (List.mem_filter.1 he).2
    have hany : (s.any fun g => isAbove e.1 g.1) = true :=
      List.any_eq_true.2 ⟨f, (List.mem_filter.1 hf).1, habove⟩
    rw [Bool.not_eq_true', hany] at hkept
    cases hkept

theorem coherent_merge (h : Ordered ours) (base theirs : Snapshot) :
    Coherent (merge base ours theirs).snapshot := by
  rw [merge_snapshot]
  exact coherent_dropDirectories (ordered_foldl_putOutcome (List.Pairwise.filter _ h) _)

/-! ### One side as the base -/

theorem Ordered.mem_iff (h : Ordered s) : (path, text) ∈ s ↔ s.get? path = some text := by
  refine ⟨fun hmem => ?_, mem_of_get?⟩
  induction s with
  | nil => cases hmem
  | cons first rest ih =>
    obtain ⟨p, found⟩ := first
    obtain ⟨hfirst, hrest⟩ := List.pairwise_cons.1 h
    rw [get?, List.lookup_cons]
    rcases List.mem_cons.1 hmem with heq | hmem
    · obtain ⟨rfl, rfl⟩ := Prod.mk.inj heq
      rw [beq_self_eq_true]
    · rw [beq_eq_false_iff_ne.2 (ne_of_gt (hfirst _ hmem))]
      exact ih hrest hmem

/-- Snapshots in order are the same if they hold the same at each path. -/
theorem Ordered.eq_of_get? (hs : Ordered s) (ht : Ordered t) (h : ∀ key, s.get? key = t.get? key) :
    s = t := by
  have hirrefl : Std.Irrefl fun e f : String × String => e.1 < f.1 := ⟨fun e => lt_irrefl e.1⟩
  have hantisymm : Std.Antisymm fun e f : String × String => e.1 < f.1 :=
    ⟨fun e f hef hfe => absurd hfe (lt_asymm hef)⟩
  refine List.Pairwise.eq_of_mem_iff hs ht fun entry => ?_
  rw [hs.mem_iff, ht.mem_iff, h]

theorem writtenDirectories_eq_nil {cs : List Contest} (h : ∀ a ∈ cs, ∀ b ∈ cs, a.isWritten = true →
    b.isWritten = true → isAbove a.path b.path = false) : writtenDirectories cs = [] := by
  induction cs with
  | nil => rfl
  | cons a rest ih =>
    have hrest := ih fun c hc d hd => h c (.tail _ hc) d (.tail _ hd)
    cases rest with
    | nil => rfl
    | cons b rest =>
      have hnot : ¬(isAbove a.path b.path && a.isWritten && b.isWritten) = true := by
        rw [Bool.and_eq_true, Bool.and_eq_true]
        rintro ⟨⟨habove, ha⟩, hb⟩
        rw [h a (by simp) b (by simp) ha hb] at habove
        cases habove
      rw [writtenDirectories, if_neg hnot, hrest]

theorem dropDirectories_eq (h : Coherent s) : dropDirectories s = s := by
  rw [dropDirectories, List.filter_eq_self]
  intro entry hentry
  simp only [Bool.not_eq_true', List.any_eq_false]
  intro other hother
  rw [h.not_isAbove hentry hother]
  exact Bool.false_ne_true

/-- With one side as the base nothing is contested, and each path that differs takes the text of the
other side. -/
theorem outcomes_of_base (htheirs : Coherent theirs) : outcomes ours ours theirs =
    (contests ours ours theirs).map fun c => (c.path, .settled (theirs.get? c.path)) := by
  have hwritten : ∀ c ∈ contests ours ours theirs, c.isWritten = true →
      ∃ text, (c.path, text) ∈ theirs := by
    intro c hc hwritten
    obtain ⟨hbase, hside, hother⟩ := mem_contests hc
    have hsome : c.theirs.isSome = true := by
      simp only [Contest.isWritten, hbase, hside, ne_eq, not_true_eq_false, decide_false,
        Bool.and_false, Bool.false_or, Bool.and_eq_true] at hwritten
      exact hwritten.1
    obtain ⟨text, htext⟩ := Option.isSome_iff_exists.1 hsome
    exact ⟨text, mem_of_get? (hother.symm.trans htext)⟩
  have hnone : writtenDirectories (contests ours ours theirs) = [] := by
    apply writtenDirectories_eq_nil
    intro a ha b hb hwrittenA hwrittenB
    obtain ⟨_, hmemA⟩ := hwritten a ha hwrittenA
    obtain ⟨_, hmemB⟩ := hwritten b hb hwrittenB
    exact htheirs.not_isAbove hmemA hmemB
  unfold outcomes
  dsimp only
  rw [hnone]
  apply List.map_congr_left
  intro c hc
  obtain ⟨hbase, hside, hother⟩ := mem_contests hc
  have hresolve : c.resolve = .settled c.theirs := by
    unfold Contest.resolve
    rw [hbase, hside, hother]
    split_ifs with hsame hours
    · simp only [Bool.or_eq_true, decide_eq_true_eq] at hsame
      rcases hsame with heq | heq <;> rw [heq]
    · rfl
    · exact absurd rfl hours
  rw [List.contains_nil, hresolve, hother]
  rfl

/-- A merge of a side that the other one comes from: the other side comes out. -/
theorem merge_of_base (hours : Ordered ours) (htheirs : Coherent theirs) :
    merge ours ours theirs = ⟨theirs, []⟩ := by
  have houtcomes : outcomes ours ours theirs =
      (contests ours ours theirs).map fun c => (c.path, .settled (theirs.get? c.path)) :=
    outcomes_of_base htheirs
  have hconflicts : (merge ours ours theirs).conflicts = [] := by
    rw [merge_conflicts, houtcomes, List.filterMap_map, List.filterMap_eq_nil_iff]
    exact fun _ _ => rfl
  have hput : (outcomes ours ours theirs).foldl putOutcome (unchanged ours ours theirs) = theirs := by
    refine Ordered.eq_of_get? (ordered_foldl_putOutcome (List.Pairwise.filter _ hours) _)
      htheirs.ordered ?_
    intro key
    rw [houtcomes]
    apply get?_foldl_putOutcome
    · intro o ho hkey
      obtain ⟨c, -, rfl⟩ := List.mem_map.1 ho
      rw [← hkey]
      rfl
    · rw [get?_unchanged]
      by_cases hcontested : key ∈ (contests ours ours theirs).map (·.path)
      · rw [if_pos hcontested, List.map_map]
        exact .inr ⟨rfl, hcontested⟩
      · rw [if_neg hcontested]
        refine .inl (not_not.1 fun hne => hcontested (mem_contests_of_ne ?_))
        exact fun hsame => hne hsame.2
  have hsnapshot : (merge ours ours theirs).snapshot = theirs := by
    rw [merge_snapshot, hput, dropDirectories_eq htheirs]
  calc
    merge ours ours theirs =
        ⟨(merge ours ours theirs).snapshot, (merge ours ours theirs).conflicts⟩ := rfl
    _ = ⟨theirs, []⟩ := by rw [hsnapshot, hconflicts]

end ReleaseHistory.Git.Snapshot
