import Mathlib
import ReleaseHistory.Git.Merge
import ReleaseHistory.Proofs.FileTree.View

/-!
# What merging puts into a snapshot

A merged snapshot has no paths but those of both sides, and holds at each path what is made of it
there.
-/

namespace ReleaseHistory.Git

namespace Snapshot

variable {s base ours theirs : Snapshot} {path text key : String} {entry : String × String}

/-! ### Snapshots in order -/

theorem mem_insert (h : entry ∈ s.insert path text) : entry = (path, text) ∨ entry ∈ s := by
  induction s with
  | nil => exact .inl (List.mem_singleton.1 h)
  | cons first rest ih =>
    obtain ⟨p, t⟩ := first
    rw [insert] at h
    split_ifs at h
    · rcases List.mem_cons.1 h with heq | hrest
      · exact .inl heq
      · exact .inr (List.mem_cons_of_mem _ hrest)
    · rcases List.mem_cons.1 h with heq | hrest
      · exact .inl heq
      · exact .inr hrest
    · rcases List.mem_cons.1 h with heq | hrest
      · exact .inr (by rw [heq]; exact List.mem_cons_self ..)
      · rcases ih hrest with heq | hmem
        · exact .inl heq
        · exact .inr (List.mem_cons_of_mem _ hmem)

theorem mem_foldl_insert {entries : List (String × String)}
    (h : entry ∈ entries.foldl (fun s (p, t) => s.insert p t) s) : entry ∈ s ∨ entry ∈ entries := by
  induction entries generalizing s with
  | nil => exact .inl h
  | cons first rest ih =>
    rcases ih h with hmem | hrest
    · rcases mem_insert hmem with heq | hmem
      · exact .inr (by rw [heq]; exact List.mem_cons_self ..)
      · exact .inl hmem
    · exact .inr (List.mem_cons_of_mem _ hrest)

theorem mem_ofList {entries : List (String × String)} (h : entry ∈ ofList entries) :
    entry ∈ entries := by
  rcases mem_foldl_insert h with hnil | hmem
  · cases hnil
  · exact hmem

theorem mem_of_get? (h : s.get? path = some text) : (path, text) ∈ s := by
  obtain ⟨before, after, rfl, -⟩ := List.lookup_eq_some_iff.1 h
  simp

theorem mem_keys_of_get? (h : s.get? path = some text) : path ∈ s.map (·.1) :=
  List.mem_map_of_mem (mem_of_get? h)

theorem get?_insert (s : Snapshot) (path text key : String) :
    (s.insert path text).get? key = if key = path then some text else s.get? key := by
  induction s with
  | nil =>
    by_cases hkey : key = path
    · simp [insert, get?, hkey]
    · simp [insert, get?, hkey, beq_eq_false_iff_ne.2 hkey]
  | cons first rest ih =>
    obtain ⟨p, t⟩ := first
    rw [get?] at ih
    rw [insert]
    by_cases hkey : key = path
    · subst hkey
      rw [if_pos rfl] at ih ⊢
      split_ifs with hp
      · simp [get?]
      · simp [get?]
      · simp [get?, List.lookup_cons, beq_eq_false_iff_ne.2 hp, ih]
    · rw [if_neg hkey] at ih ⊢
      split_ifs with hp
      · subst hp
        simp [get?, List.lookup_cons, beq_eq_false_iff_ne.2 hkey]
      · simp [get?, List.lookup_cons, beq_eq_false_iff_ne.2 hkey]
      · simp only [get?, List.lookup_cons, ih]

theorem get?_foldl_insert_isSome {entries : List (String × String)}
    (h : key ∈ entries.map (·.1) ∨ (s.get? key).isSome = true) :
    ((entries.foldl (fun s (p, t) => s.insert p t) s).get? key).isSome = true := by
  induction entries generalizing s with
  | nil => exact h.resolve_left List.not_mem_nil
  | cons first rest ih =>
    apply ih
    rw [get?_insert]
    rcases h with hmem | hsome
    · rcases List.mem_cons.1 hmem with rfl | hrest
      · exact .inr (by rw [if_pos rfl]; rfl)
      · exact .inl hrest
    · right
      split_ifs
      · rfl
      · exact hsome

/-! ### Outcomes -/

/-- The text that an outcome leaves, if it leaves one. -/
def leftText : Contest.Outcome → Option String
  | .settled text => text
  | .contested text => text

def putOutcome (s : Snapshot) (o : String × Contest.Outcome) : Snapshot :=
  match leftText o.2 with
  | some text => s.insert o.1 text
  | none => s

/-- What becomes of the paths whose texts are not all the same. -/
def outcomes (base ours theirs : Snapshot) : List (String × Contest.Outcome) :=
  let cs := contests base ours theirs
  cs.map fun c =>
    (c.path, if (writtenDirectories cs).contains c.path then .contested none else c.resolve)

def unchanged (base ours theirs : Snapshot) : Snapshot :=
  ours.filter fun entry => !(contests base ours theirs).any fun c => c.path = entry.1

theorem merge_snapshot (base ours theirs : Snapshot) :
    (merge base ours theirs).snapshot =
      dropDirectories ((outcomes base ours theirs).foldl putOutcome (unchanged base ours theirs)) := by
  unfold merge
  dsimp only
  congr 2
  funext s o
  obtain ⟨p, text | text⟩ := o <;> cases text <;> rfl

theorem merge_conflicts (base ours theirs : Snapshot) :
    (merge base ours theirs).conflicts = (outcomes base ours theirs).filterMap fun o =>
      match o.2 with
      | .settled _ => none
      | .contested _ => some o.1 :=
  rfl

theorem mem_foldl_putOutcome {os : List (String × Contest.Outcome)}
    (h : entry ∈ os.foldl putOutcome s) :
    entry ∈ s ∨ ∃ o ∈ os, entry.1 = o.1 ∧ (leftText o.2).isSome = true := by
  induction os generalizing s with
  | nil => exact .inl h
  | cons o os ih =>
    rcases ih h with hmem | ⟨o', ho', hkey, hsome⟩
    · unfold putOutcome at hmem
      split at hmem
      · rename_i text htext
        rcases mem_insert hmem with rfl | hmem
        · exact .inr ⟨o, List.mem_cons_self .., rfl, by rw [htext]; rfl⟩
        · exact .inl hmem
      · exact .inl hmem
    · exact .inr ⟨o', List.mem_cons_of_mem o ho', hkey, hsome⟩

theorem isSome_of_leftText_resolve {c : Contest} (h : (leftText c.resolve).isSome = true) :
    c.ours.isSome = true ∨ c.theirs.isSome = true := by
  unfold Contest.resolve at h
  split_ifs at h
  · exact .inl h
  · exact .inr h
  · split at h
    · rename_i hours _
      exact .inl (by rw [hours]; rfl)
    · cases h

theorem mem_contests {c : Contest} (h : c ∈ contests base ours theirs) :
    c.base = base.get? c.path ∧ c.ours = ours.get? c.path ∧ c.theirs = theirs.get? c.path := by
  obtain ⟨p, -, hp⟩ := List.mem_filterMap.1 h
  dsimp only at hp
  split at hp
  · cases hp
  · cases hp
    exact ⟨rfl, rfl, rfl⟩

theorem mem_of_foldl_outcomes
    (h : entry ∈ (outcomes base ours theirs).foldl putOutcome (unchanged base ours theirs)) :
    entry.1 ∈ ours.map (·.1) ∨ entry.1 ∈ theirs.map (·.1) := by
  rcases mem_foldl_putOutcome h with hours | ⟨o, ho, hkey, hsome⟩
  · exact .inl (List.mem_map_of_mem (List.mem_filter.1 hours).1)
  · obtain ⟨c, hc, rfl⟩ := List.mem_map.1 ho
    obtain ⟨-, hours, htheirs⟩ := mem_contests hc
    replace hsome : (leftText c.resolve).isSome = true := by
      dsimp only at hsome
      split at hsome
      · cases hsome
      · exact hsome
    rw [hkey]
    rcases isSome_of_leftText_resolve hsome with hsome | hsome
    · obtain ⟨text, htext⟩ := Option.isSome_iff_exists.1 hsome
      exact .inl (mem_keys_of_get? (hours.symm.trans htext))
    · obtain ⟨text, htext⟩ := Option.isSome_iff_exists.1 hsome
      exact .inr (mem_keys_of_get? (htheirs.symm.trans htext))

theorem mem_merge (h : entry ∈ (merge base ours theirs).snapshot) :
    entry.1 ∈ ours.map (·.1) ∨ entry.1 ∈ theirs.map (·.1) := by
  rw [merge_snapshot] at h
  exact mem_of_foldl_outcomes (List.mem_filter.1 h).1

theorem get?_unchanged (base ours theirs : Snapshot) (key : String) :
    (unchanged base ours theirs).get? key =
      if key ∈ (contests base ours theirs).map (·.path) then none else ours.get? key := by
  have hkeep : unchanged base ours theirs = ours.filter fun entry =>
      decide (entry.1 ∉ (contests base ours theirs).map (·.path)) := by
    apply List.filter_congr
    intro entry _
    rw [Bool.eq_iff_iff]
    simp only [Bool.not_eq_true', List.any_eq_false, decide_eq_true_eq, List.mem_map, not_exists,
      not_and]
  rw [hkeep, Snapshot.get?, FileTree.lookup_filter fun k =>
    decide (k ∉ (contests base ours theirs).map (·.path))]
  by_cases hkey : key ∈ (contests base ours theirs).map (·.path)
  · simp [hkey]
  · simp [hkey, Snapshot.get?]

/-- No path of a snapshot goes through a directory of a name. -/
def Without (name : String) (s : Snapshot) : Prop := ∀ entry ∈ s, name ∉ Text.splitOn '/' entry.1

theorem Without.of_paths {name : String} (hs : Without name s)
    (h : entry.1 ∈ s.map (·.1)) : name ∉ Text.splitOn '/' entry.1 := by
  obtain ⟨found, hfound, heq⟩ := List.mem_map.1 h
  rw [← heq]
  exact hs found hfound

theorem Without.append {name : String} {t : Snapshot} (hs : Without name s) (ht : Without name t) :
    Without name (s ++ t) := by
  intro entry hentry
  rcases List.mem_append.1 hentry with hentry | hentry
  · exact hs entry hentry
  · exact ht entry hentry

/-- Paths without directories. -/
def Flat (s : Snapshot) : Prop := ∀ entry ∈ s, '/' ∉ entry.1.toList

/-! ### Contested paths -/

theorem mem_pathsOf {p : String} {snapshots : List Snapshot} :
    p ∈ pathsOf snapshots ↔ ∃ s ∈ snapshots, p ∈ s.map (·.1) := by
  have hentries : p ∈ (snapshots.flatMap fun s => s.map fun (p, _) => (p, "")).map (·.1) ↔
      ∃ s ∈ snapshots, p ∈ s.map (·.1) := by
    simp [List.map_flatMap, List.mem_flatMap]
  rw [← hentries, pathsOf]
  constructor
  · intro hp
    obtain ⟨entry, hentry, rfl⟩ := List.mem_map.1 hp
    exact List.mem_map_of_mem (mem_ofList hentry)
  · intro hp
    obtain ⟨text, htext⟩ := Option.isSome_iff_exists.1 (get?_foldl_insert_isSome (.inl hp))
    exact mem_keys_of_get? htext

theorem mem_contests_of_ne {key : String}
    (h : ¬(base.get? key = ours.get? key ∧ ours.get? key = theirs.get? key)) :
    key ∈ (contests base ours theirs).map (·.path) := by
  have hpath : key ∈ pathsOf [base, ours, theirs] := by
    by_contra hno
    have hnone : ∀ s ∈ [base, ours, theirs], s.get? key = none := by
      intro s hs
      cases hget : s.get? key with
      | none => rfl
      | some text => exact absurd (mem_pathsOf.2 ⟨s, hs, mem_keys_of_get? hget⟩) hno
    apply h
    rw [hnone base (by simp), hnone ours (by simp), hnone theirs (by simp)]
    exact ⟨rfl, rfl⟩
  have hcontest : (⟨key, base.get? key, ours.get? key, theirs.get? key⟩ : Contest) ∈
      contests base ours theirs := by
    apply List.mem_filterMap.2
    exact ⟨key, hpath, if_neg (by simpa using h)⟩
  exact List.mem_map_of_mem hcontest

theorem get?_putOutcome (s : Snapshot) (o : String × Contest.Outcome) (key : String) :
    (putOutcome s o).get? key =
      if o.1 = key then (leftText o.2).or (s.get? key) else s.get? key := by
  unfold putOutcome
  split
  · rename_i text htext
    rw [get?_insert, htext]
    by_cases hkey : key = o.1
    · rw [if_pos hkey, if_pos hkey.symm]
      rfl
    · rw [if_neg hkey, if_neg (Ne.symm hkey)]
  · rename_i hnone
    rw [hnone, Option.none_or, ite_self]

theorem get?_foldl_putOutcome {os : List (String × Contest.Outcome)} {text : Option String}
    (hos : ∀ o ∈ os, o.1 = key → leftText o.2 = text)
    (hs : s.get? key = text ∨ s.get? key = none ∧ key ∈ os.map (·.1)) :
    (os.foldl putOutcome s).get? key = text := by
  induction os generalizing s with
  | nil => exact hs.resolve_right fun h => List.not_mem_nil h.2
  | cons o os ih =>
    apply ih fun o' ho' => hos o' (List.mem_cons_of_mem o ho')
    rw [get?_putOutcome]
    by_cases hkey : o.1 = key
    · rw [if_pos hkey, hos o (List.mem_cons_self ..) hkey]
      left
      rcases hs with heq | ⟨hnone, -⟩
      · rw [heq, Option.or_self]
      · rw [hnone, Option.or_none]
    · rw [if_neg hkey]
      rcases hs with heq | ⟨hnone, hmem⟩
      · exact .inl heq
      · exact .inr ⟨hnone, (List.mem_cons.1 hmem).resolve_left (Ne.symm hkey)⟩

end Snapshot

end ReleaseHistory.Git
