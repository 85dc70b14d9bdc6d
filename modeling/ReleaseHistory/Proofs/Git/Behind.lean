import ReleaseHistory.Proofs.Git.Coherent
import ReleaseHistory.Proofs.Git.Store

/-!
# Branches that are behind others

A commit that is an ancestor of another one is where their lines of history meet. So a merge of what
is ahead into what is behind has one of its sides as its base, and cannot have a conflict.
-/

namespace ReleaseHistory.Git

namespace History

variable {h : History} {a b : Nat} {object : CommitObject}

/-! ### Where lines of history meet -/

theorem nodup_eraseDups (ns : List Nat) : ns.eraseDups.Nodup := by
  induction hlength : ns.length using Nat.strong_induction_on generalizing ns with
  | _ length ih =>
    cases ns with
    | nil => exact List.nodup_nil
    | cons n ns =>
      rw [List.eraseDups_cons, List.nodup_cons, List.mem_eraseDups]
      refine ⟨by simp, ih _ ?_ _ rfl⟩
      have hle := List.length_filter_le (fun m => !m == n) ns
      rw [List.length_cons] at hlength
      omega

/-- A common ancestor of two commits that is not an ancestor of another one. -/
structure IsBase (h : History) (a b n : Nat) : Prop where
  left : h.Ancestor n a
  right : h.Ancestor n b
  last : ∀ m, h.Ancestor m a → h.Ancestor m b → h.Ancestor n m → n = m

theorem mem_mergeBases_iff (hs : h.Sound) {n : Nat} : n ∈ h.mergeBases a [b] ↔ h.IsBase a b n := by
  have hcommon : ∀ c, c ∈ (h.reachable a).eraseDups.filter ([b].flatMap h.reachable).contains ↔
      h.Ancestor c a ∧ h.Ancestor c b := by
    intro c
    rw [List.mem_filter, List.mem_eraseDups, mem_reachable_iff hs, List.flatMap_singleton,
      List.contains_iff_mem, mem_reachable_iff hs]
  rw [mergeBases, List.mem_mergeSort, List.mem_filter, hcommon, Bool.not_eq_true', List.any_eq_false]
  constructor
  · rintro ⟨⟨hleft, hright⟩, hlast⟩
    refine ⟨hleft, hright, fun m hma hmb hnm => ?_⟩
    by_contra hne
    exact hlast m ((hcommon m).2 ⟨hma, hmb⟩) ((isAncestor_iff hs).2 ⟨hne, hnm⟩)
  · intro hbase
    refine ⟨⟨hbase.left, hbase.right⟩, fun m hm hnm => ?_⟩
    obtain ⟨hne, hancestor⟩ := (isAncestor_iff hs).1 hnm
    obtain ⟨hma, hmb⟩ := (hcommon m).1 hm
    exact hne (hbase.last m hma hmb hancestor)

theorem nodup_mergeBases (h : History) (a : Nat) (others : List Nat) :
    (h.mergeBases a others).Nodup := by
  rw [mergeBases, (List.mergeSort_perm _ _).nodup_iff]
  exact ((nodup_eraseDups (h.reachable a)).filter _).filter _

/-- Where there is a single base, the two lines of history meet at it alone. -/
theorem mergeBases_eq_singleton (hs : h.Sound) {n : Nat} (hn : ∀ m, h.IsBase a b m ↔ m = n) :
    h.mergeBases a [b] = [n] := by
  rw [← List.perm_singleton,
    List.perm_ext_iff_of_nodup (nodup_mergeBases h a [b]) (List.nodup_singleton n)]
  intro m
  rw [mem_mergeBases_iff hs, hn, List.mem_singleton]

/-- The files of the only commit at which two lines of history meet are the base of their merge. -/
theorem baseOf_eq_snapshot (hs : h.Sound) {n : Nat} (hn : ∀ m, h.IsBase a b m ↔ m = n) (fuel : Nat) :
    h.baseOf (fuel + 1) [a] [b] = h.snapshot n := by
  simp only [baseOf, List.nil_append, mergeBases_eq_singleton hs hn, List.foldl_nil]

/-- The lines of a commit and of one that comes from it meet at the first. -/
theorem isBase_iff_of_ancestor (hs : h.Sound) (hab : h.Ancestor a b) (n : Nat) :
    h.IsBase a b n ↔ n = a := by
  constructor
  · intro hbase
    exact hbase.last a .refl hab hbase.left
  · rintro rfl
    exact ⟨.refl, hab, fun m hma _ ham =>
      Nat.le_antisymm (hs.ancestor_le ham) (hs.ancestor_le hma)⟩

/-- A merge of a commit into one that it comes from makes the files of the first. -/
theorem merge_of_ancestor (hs : h.Sound) (ha : (h.snapshot a).Coherent) (hb : (h.snapshot b).Coherent)
    (hab : h.Ancestor a b) : h.merge a b = ⟨h.snapshot b, []⟩ := by
  rw [merge, baseOf_eq_snapshot hs (isBase_iff_of_ancestor hs hab)]
  exact Snapshot.merge_of_base ha.ordered hb

/-! ### All snapshots of a history -/

/-- The files of all commits are in one directory. -/
def Flat (h : History) : Prop := ∀ n, (h.snapshot n).Flat

/-- All snapshots of a history can stand in a directory. -/
def Coherent (h : History) : Prop := ∀ n, (h.snapshot n).Coherent

theorem coherent_of_cases {g h : History} {snapshot : Snapshot} (hg : g.Coherent)
    (hsnapshot : snapshot.Coherent)
    (hold : ∀ n c, h.get? n = some c → g.get? n = some c ∨ c.snapshot = snapshot) : h.Coherent := by
  intro n
  rw [History.snapshot]
  cases hget : h.get? n with
  | none => exact Snapshot.coherent_nil
  | some c =>
    rcases hold n c hget with hsame | hnew
    · have hcoherent := hg n
      rwa [History.snapshot, hsame] at hcoherent
    · rw [← hnew] at hsnapshot
      exact hsnapshot

theorem snapshot_push {P : Snapshot → Prop} (hall : ∀ n, P (h.snapshot n)) (hobject : P object.snapshot)
    (n : Nat) : P ((h.push object).snapshot n) := by
  rw [snapshot, get?_push]
  by_cases hn : n = h.commits.size
  · rw [if_pos hn]
    exact hobject
  · rw [if_neg hn]
    exact hall n

/-- What holds of all snapshots of a history and of that of a commit holds of all after the commit. -/
theorem snapshot_add {P : Snapshot → Prop} (hall : ∀ n, P (h.snapshot n)) (hobject : P object.snapshot)
    (n : Nat) : P ((h.add object).2.snapshot n) := by
  rcases add_eq h object with ⟨-, hadd⟩ | ⟨m, -, hadd⟩
  · rw [hadd]
    exact snapshot_push hall hobject n
  · rw [hadd]
    exact hall n

theorem Flat.add (hflat : h.Flat) (hobject : object.snapshot.Flat) : (h.add object).2.Flat :=
  snapshot_add hflat hobject

theorem Coherent.add (hcoherent : h.Coherent) (hobject : object.snapshot.Coherent) :
    (h.add object).2.Coherent :=
  snapshot_add hcoherent hobject

end History

end ReleaseHistory.Git
