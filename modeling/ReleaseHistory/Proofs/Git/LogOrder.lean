import Mathlib.Data.List.Nodup
import Mathlib.Data.List.Perm.Subperm
import ReleaseHistory.Proofs.Git.Behind

/-!
# The order of a log

Commits wait in a heap until all their children are out. Sifting only exchanges commits, so each
commit that waits is taken out once, and a parent is counted down once for each time that a child
names it. So a log lists a commit and all its ancestors, each of them once, and children before their
parents, whatever the times of the commits are.
-/

namespace ReleaseHistory.Git.History

variable {h : History} {w v : Waiting} {n m p q tip : Nat} {members out parents : List Nat}
  {pending : Nat → Nat}

/-! ### The heap -/

theorem perm_swapIfInBounds (w : Waiting) (i j : Nat) :
    (w.swapIfInBounds i j).toList.Perm w.toList := by
  rw [Array.swapIfInBounds_def]
  split
  · split
    · exact (Array.swap_perm _ _).toList
    · exact .refl _
  · exact .refl _

theorem perm_siftUp (h : History) (fuel : Nat) (w : Waiting) (i : Nat) :
    (h.siftUp fuel w i).toList.Perm w.toList := by
  induction fuel generalizing w i with
  | zero => exact .refl _
  | succ fuel ih =>
    rw [siftUp]
    dsimp only
    split
    · exact .refl _
    · split
      · exact (ih _ _).trans (perm_swapIfInBounds w _ i)
      · exact .refl _

theorem perm_siftDown (h : History) (fuel : Nat) (w : Waiting) (i : Nat) :
    (h.siftDown fuel w i).toList.Perm w.toList := by
  induction fuel generalizing w i with
  | zero => exact .refl _
  | succ fuel ih =>
    have hstep : ∀ below, (if h.givesWay (w.getD i 0) (w.getD below 0) then
        h.siftDown fuel (w.swapIfInBounds i below) below else w).toList.Perm w.toList := by
      intro below
      split
      · exact (ih _ below).trans (perm_swapIfInBounds w i below)
      · exact .refl _
    rw [siftDown]
    split
    · exact .refl _
    · exact hstep _

theorem perm_enqueue (h : History) (w : Waiting) (n : Nat) :
    (h.enqueue w n).toList.Perm (n :: w.toList) := by
  have hpush : (w.push n).toList.Perm (n :: w.toList) := by
    rw [Array.toList_push]
    exact List.perm_append_singleton n w.toList
  exact (perm_siftUp h w.size (w.push n) w.size).trans hpush

theorem mem_enqueue : q ∈ (h.enqueue w n).toList ↔ q = n ∨ q ∈ w.toList := by
  rw [(perm_enqueue h w n).mem_iff, List.mem_cons]

theorem dequeue?_eq_none (hw : h.dequeue? w = none) : w.toList = [] := by
  unfold dequeue? at hw
  split at hw
  · rename_i hnone
    rw [← Array.getElem?_toList] at hnone
    exact List.eq_nil_of_length_eq_zero (Nat.le_zero.1 (List.getElem?_eq_none_iff.1 hnone))
  · dsimp only at hw
    split at hw <;> cases hw

theorem perm_dequeue? (hw : h.dequeue? w = some (n, v)) : w.toList.Perm (n :: v.toList) := by
  obtain ⟨ws⟩ := w
  cases ws with
  | nil => cases hw
  | cons top ws =>
    rcases List.eq_nil_or_concat ws with rfl | ⟨ws, last, rfl⟩
    · cases hw
      exact .refl _
    · have hdequeue : h.dequeue? ⟨top :: ws.concat last⟩ =
          some (top, h.siftDown (top :: ws).length ⟨last :: ws⟩ 0) := by
        have hpop : (⟨top :: ws.concat last⟩ : Waiting).pop = ⟨top :: ws⟩ := by
          rw [List.concat_eq_append, ← List.cons_append]
          simp only [Array.pop, List.dropLast_concat]
        have hlast : (⟨top :: ws.concat last⟩ : Waiting).getD
            ((⟨top :: ws.concat last⟩ : Waiting).size - 1) 0 = last := by
          simp [Array.getD_eq_getD_getElem?]
        unfold dequeue?
        rw [hpop, hlast]
        rfl
      rw [hdequeue] at hw
      obtain ⟨rfl, rfl⟩ := Prod.mk.inj (Option.some.inj hw)
      refine .cons _ (.symm ((perm_siftDown h _ _ 0).trans ?_))
      rw [List.concat_eq_append]
      exact (List.perm_append_singleton last ws).symm

/-! ### Children that are not out -/

theorem childCount_eq_sum (h : History) (members : List Nat) (q : Nat) :
    h.childCount members q = (members.map fun m => (h.parents m).count q).sum := by
  have hfold : ∀ total, members.foldl (fun total m => total + (h.parents m).count q) total =
      total + (members.map fun m => (h.parents m).count q).sum := by
    intro total
    induction members generalizing total with
    | nil => rfl
    | cons m members ih =>
      rw [List.foldl_cons, ih, List.map_cons, List.sum_cons, Nat.add_assoc]
  rw [childCount, hfold, Nat.zero_add]

theorem childCount_eq_zero_iff :
    h.childCount members q = 0 ↔ ∀ m ∈ members, q ∉ h.parents m := by
  rw [childCount_eq_sum, List.sum_eq_zero_iff_forall_eq_nat]
  simp only [List.mem_map, forall_exists_index, and_imp, forall_apply_eq_imp_iff₂, List.count_eq_zero]

/-- Members that are not out. -/
def remaining (members out : List Nat) : List Nat := members.filter (· ∉ out)

theorem mem_remaining : q ∈ remaining members out ↔ q ∈ members ∧ q ∉ out := by
  rw [remaining, List.mem_filter, decide_eq_true_eq]

theorem childCount_remaining (hmembers : members.Nodup) (hn : n ∈ members) (hout : n ∉ out) :
    h.childCount (remaining members out) q =
      h.childCount (remaining members (out ++ [n])) q + (h.parents n).count q := by
  have hperm : (remaining members out).Perm (n :: remaining members (out ++ [n])) := by
    have hrest : remaining members (out ++ [n]) = (remaining members out).erase n := by
      rw [remaining, remaining, (hmembers.filter _).erase_eq_filter, List.filter_filter]
      apply List.filter_congr
      intro m _
      rw [Bool.eq_iff_iff]
      simp [not_or, and_comm]
    rw [hrest]
    exact List.perm_cons_erase (mem_remaining.2 ⟨hn, hout⟩)
  rw [childCount_eq_sum, childCount_eq_sum, (hperm.map _).sum_nat, List.map_cons, List.sum_cons,
    Nat.add_comm]

/-! ### Waiting -/

/-- Some members are out, others wait, and the children are counted that are not out yet. `parents` are
those of the last one that went out which are still to be counted down. -/
structure Waits (h : History) (members out parents : List Nat) (w : Waiting) (pending : Nat → Nat) :
    Prop where
  once : (out ++ w.toList).Nodup
  inside : ∀ q ∈ out ++ w.toList, q ∈ members
  counts : ∀ q ∈ members, pending q = h.childCount (remaining members out) q + parents.count q
  ready : ∀ q ∈ members, pending q = 0 ↔ q ∈ out ++ w.toList
  /-- No commit that is out was followed by one that it is an ancestor of. -/
  order : out.Pairwise fun a b => ¬h.Ancestor a b
  closed : ∀ m ∈ out, ∀ c ∈ members, m ∈ h.parents c → c ∈ out

/-- Counts a parent down, and lets it wait when all its children are out. -/
def visit (h : History) (state : Waiting × (Nat → Nat)) (p : Nat) : Waiting × (Nat → Nat) :=
  let (w, pending) := state
  let left := pending p - 1
  (if left = 0 then h.enqueue w p else w, fun q => if q = p then left else pending q)

theorem walk_succ (h : History) (fuel : Nat) (w : Waiting) (pending : Nat → Nat) :
    h.walk (fuel + 1) w pending = match h.dequeue? w with
      | none => []
      | some (n, v) => n :: h.walk fuel ((h.parents n).foldl h.visit (v, pending)).1
          ((h.parents n).foldl h.visit (v, pending)).2 := by
  rw [walk]
  cases h.dequeue? w with
  | none => rfl
  | some next => rfl

theorem visit_eq (h : History) (w : Waiting) (pending : Nat → Nat) (p : Nat) :
    h.visit (w, pending) p = (if pending p - 1 = 0 then h.enqueue w p else w,
      fun q => if q = p then pending p - 1 else pending q) := rfl

theorem Waits.visit (hw : Waits h members out (p :: parents) w pending) (hp : p ∈ members) :
    Waits h members out parents (h.visit (w, pending) p).1 (h.visit (w, pending) p).2 := by
  have hcount := hw.counts p hp
  rw [List.count_cons_self, ← Nat.add_assoc] at hcount
  have hnew : p ∉ out ++ w.toList := by
    rw [← hw.ready p hp, hcount]
    exact Nat.succ_ne_zero _
  rw [visit_eq]
  generalize hleft : pending p - 1 = left
  have hleft : left = h.childCount (remaining members out) p + parents.count p := by omega
  have hmem : ∀ q, q ∈ out ++ (if left = 0 then h.enqueue w p else w).toList ↔
      q ∈ out ++ w.toList ∨ q = p ∧ left = 0 := by
    intro q
    split
    · rename_i hzero
      simp only [List.mem_append, mem_enqueue, hzero, and_true]
      tauto
    · rename_i hne
      simp only [hne, and_false, or_false]
  exact
    { once := by
        split
        · have hperm := ((perm_enqueue h w p).append_left out).trans List.perm_middle
          rw [hperm.nodup_iff, List.nodup_cons]
          exact ⟨hnew, hw.once⟩
        · exact hw.once
      inside := by
        intro q hq
        rcases (hmem q).1 hq with hold | ⟨rfl, -⟩
        · exact hw.inside q hold
        · exact hp
      counts := by
        intro q hq
        dsimp only
        split
        · rename_i heq
          rw [heq, hleft]
        · rename_i hne
          rw [hw.counts q hq, List.count_cons_of_ne (Ne.symm hne)]
      ready := by
        intro q hq
        rw [hmem]
        dsimp only
        split
        · rename_i heq
          rw [heq]
          exact ⟨fun hzero => .inr ⟨rfl, hzero⟩, fun h => (h.resolve_left hnew).2⟩
        · rename_i hne
          rw [hw.ready q hq]
          exact ⟨.inl, fun h => h.resolve_right fun h => hne h.1⟩
      order := hw.order
      closed := hw.closed }

theorem Waits.visits (hw : Waits h members out parents w pending) (hparents : ∀ p ∈ parents, p ∈ members) :
    Waits h members out [] (parents.foldl h.visit (w, pending)).1
      (parents.foldl h.visit (w, pending)).2 := by
  induction parents generalizing w pending with
  | nil => exact hw
  | cons p parents ih =>
    obtain ⟨hp, hrest⟩ := List.forall_mem_cons.1 hparents
    exact ih (hw.visit hp) hrest

theorem Waits.mem_of_ancestor (hw : Waits h members out parents w pending)
    (hdown : ∀ m ∈ members, ∀ q, h.Ancestor q m → q ∈ members) (hn : n ∈ members)
    (hm : m ∈ out) (hmn : h.Ancestor m n) : n ∈ out := by
  induction hmn using Relation.ReflTransGen.head_induction_on with
  | refl => exact hm
  | head hp hrest ih => exact ih (hw.closed _ hm _ (hdown n hn _ hrest) hp)

theorem Waits.dequeue (hmembers : members.Nodup)
    (hdown : ∀ m ∈ members, ∀ q, h.Ancestor q m → q ∈ members)
    (hw : Waits h members out [] w pending) (hnext : h.dequeue? w = some (n, v)) :
    n ∈ members ∧ Waits h members (out ++ [n]) (h.parents n) v pending := by
  have hperm : (out ++ w.toList).Perm (out ++ [n] ++ v.toList) := by
    rw [List.append_assoc]
    exact (perm_dequeue? hnext).append_left out
  have hwaits : n ∈ out ++ w.toList := hperm.mem_iff.2 (by simp)
  have hn : n ∈ members := hw.inside n hwaits
  have honce : (out ++ [n] ++ v.toList).Nodup := hperm.nodup_iff.1 hw.once
  have hout : n ∉ out := fun hmem =>
    (List.nodup_append.1 (List.nodup_append.1 honce).1).2.2 n hmem n (List.mem_singleton_self n) rfl
  refine ⟨hn, ?_⟩
  exact
    { once := honce
      inside := fun q hq => hw.inside q (hperm.mem_iff.2 hq)
      counts := by
        intro q hq
        rw [hw.counts q hq, List.count_nil, Nat.add_zero]
        exact childCount_remaining hmembers hn hout
      ready := by
        intro q hq
        rw [← hperm.mem_iff]
        exact hw.ready q hq
      order := by
        rw [List.pairwise_append]
        refine ⟨hw.order, List.pairwise_singleton _ n, fun m hm q hq hmq => ?_⟩
        rw [List.mem_singleton.1 hq] at hmq
        exact hout (hw.mem_of_ancestor hdown hn hm hmq)
      closed := by
        intro m hm c hc hmc
        rcases List.mem_append.1 hm with hold | hnew
        · exact List.mem_append_left _ (hw.closed m hold c hc hmc)
        · obtain rfl := List.mem_singleton.1 hnew
          -- it could only be taken out because no child of it is left
          have hzero := hw.counts m hn
          rw [(hw.ready m hn).2 hwaits, List.count_nil, Nat.add_zero] at hzero
          by_contra hcout
          refine childCount_eq_zero_iff.1 hzero.symm c (mem_remaining.2 ⟨hc, fun hmem => ?_⟩) hmc
          exact hcout (List.mem_append_left _ hmem) }

theorem Waits.mem_of_none (hs : h.Sound) (hw : Waits h members out [] w pending)
    (hnone : h.dequeue? w = none) (hq : q ∈ members) : q ∈ out := by
  -- by induction from the youngest: the children of a member are younger
  induction hage : h.commits.size - q using Nat.strong_induction_on generalizing q with
  | _ age ih =>
    have hzero : h.childCount (remaining members out) q = 0 := by
      rw [childCount_eq_zero_iff]
      intro c hc hqc
      obtain ⟨hmember, hcout⟩ := mem_remaining.1 hc
      have hyounger := hs.older c q hqc
      have hsize : c < h.commits.size := by
        by_contra hle
        rw [parents_of_le (Nat.not_lt.1 hle)] at hqc
        cases hqc
      exact hcout (ih (h.commits.size - c) (by omega) hmember rfl)
    have hready := hw.ready q hq
    rw [hw.counts q hq, hzero, dequeue?_eq_none hnone, List.append_nil] at hready
    exact hready.1 rfl

theorem Waits.walk (hs : h.Sound) (hmembers : members.Nodup)
    (hdown : ∀ m ∈ members, ∀ q, h.Ancestor q m → q ∈ members) {fuel : Nat}
    (hw : Waits h members out [] w pending) (hfuel : members.length ≤ out.length + fuel) :
    (out ++ h.walk fuel w pending).Perm members ∧
      (out ++ h.walk fuel w pending).Pairwise fun a b => ¬h.Ancestor a b := by
  have honce : out.Nodup := (List.nodup_append.1 hw.once).1
  have hinside : out ⊆ members := fun q hq => hw.inside q (List.mem_append_left _ hq)
  induction fuel generalizing out w pending with
  | zero =>
    rw [History.walk, List.append_nil]
    exact ⟨(List.subperm_of_subset honce hinside).perm_of_length_le hfuel, hw.order⟩
  | succ fuel ih =>
    rw [walk_succ]
    cases hnext : h.dequeue? w with
    | none =>
      dsimp only
      rw [List.append_nil, List.perm_ext_iff_of_nodup honce hmembers]
      exact ⟨fun q => ⟨fun hq => hinside hq, hw.mem_of_none hs hnext⟩, hw.order⟩
    | some next =>
      obtain ⟨n, v⟩ := next
      obtain ⟨hn, htaken⟩ := hw.dequeue hmembers hdown hnext
      have hvisited := htaken.visits fun p hp => hdown n hn p (.of_parent hp)
      have hlength : members.length ≤ (out ++ [n]).length + fuel := by
        rw [List.length_append, List.length_singleton]
        omega
      have hrest := ih hvisited hlength (List.nodup_append.1 hvisited.once).1
        fun q hq => hvisited.inside q (List.mem_append_left _ hq)
      rw [List.append_assoc] at hrest
      exact hrest

/-! ### Logs -/

theorem nodup_close (hmarked : members.Nodup) (n : Nat) : (h.close n members).Nodup := by
  induction n generalizing members with
  | zero => exact hmarked
  | succ n ih =>
    rw [close]
    split
    · refine ih (List.nodup_append.2 ⟨hmarked, (nodup_eraseDups _).filter _, ?_⟩)
      rintro a ha b hb rfl
      have hnew := (List.mem_filter.1 hb).2
      simp [ha] at hnew
    · exact ih hmarked

theorem nodup_reachable (h : History) (tip : Nat) : (h.reachable tip).Nodup :=
  nodup_close (List.nodup_singleton tip) _

theorem lookup_map_mk {f : Nat → Nat} (hq : q ∈ members) :
    (members.map fun m => (m, f m)).lookup q = some (f q) := by
  induction members with
  | nil => cases hq
  | cons m members ih =>
    rw [List.map_cons, List.lookup_cons]
    by_cases heq : q = m
    · rw [heq, beq_self_eq_true]
    · rw [beq_eq_false_iff_ne.2 heq]
      exact ih ((List.mem_cons.1 hq).resolve_left heq)

/-- At the beginning the tip waits alone: of all that can be reached only it has no child. -/
theorem waits_tip (hs : h.Sound) (tip : Nat) :
    Waits h (h.reachable tip) [] [] #[tip] fun n =>
      (((h.reachable tip).map fun m => (m, h.childCount (h.reachable tip) m)).lookup n).getD 0 where
  once := List.nodup_singleton tip
  inside := by
    intro q hq
    rw [List.mem_singleton.1 hq]
    exact (mem_reachable_iff hs).2 .refl
  counts := by
    intro q hq
    have hall : remaining (h.reachable tip) [] = h.reachable tip := by
      simp [remaining]
    rw [lookup_map_mk hq, hall]
    rfl
  ready := by
    intro q hq
    rw [lookup_map_mk hq, Option.getD_some, childCount_eq_zero_iff]
    constructor
    · intro hchildless
      rcases Relation.ReflTransGen.cases_head ((mem_reachable_iff hs).1 hq) with rfl | ⟨c, hqc, hc⟩
      · exact List.mem_singleton_self q
      · exact absurd hqc (hchildless c ((mem_reachable_iff hs).2 hc))
    · intro htip m hm htm
      rw [List.mem_singleton.1 htip] at htm
      have hle := hs.ancestor_le ((mem_reachable_iff hs).1 hm)
      exact absurd (hs.older m tip htm) (Nat.not_lt.2 hle)
  order := .nil
  closed := fun _ hm => nomatch hm

/-- The order of a log has a commit and all its ancestors in it, each of them once. -/
theorem perm_logOrder (hs : h.Sound) (tip : Nat) : (h.logOrder tip).Perm (h.reachable tip) ∧
    (h.logOrder tip).Pairwise fun a b => ¬h.Ancestor a b := by
  have hdown : ∀ m ∈ h.reachable tip, ∀ q, h.Ancestor q m → q ∈ h.reachable tip := fun m hm q hqm =>
    (mem_reachable_iff hs).2 (hqm.trans ((mem_reachable_iff hs).1 hm))
  exact (waits_tip hs tip).walk hs (nodup_reachable h tip) hdown (by simp)

/-- Commits in a row: a commit and all its ancestors, each of them once, and none before one of its
own ancestors. -/
structure OldestFirst (h : History) (tip : Nat) (row : List Nat) : Prop where
  there : ∀ m ∈ row, (h.get? m).isSome = true
  once : (row.map h.id).Nodup
  complete : ∀ m, m ∈ row ↔ h.Ancestor m tip
  order : row.Pairwise fun a b => ¬h.Ancestor b a

theorem exists_oldestFirst (hs : h.Sound) (htip : tip < h.commits.size) :
    ∃ row, OldestFirst h tip row ∧ h.log tip = row.map h.summary := by
  obtain ⟨hperm, horder⟩ := perm_logOrder hs tip
  have hmem : ∀ m, m ∈ (h.logOrder tip).reverse ↔ h.Ancestor m tip := fun m => by
    rw [List.mem_reverse, hperm.mem_iff, mem_reachable_iff hs]
  have hlt : ∀ m ∈ (h.logOrder tip).reverse, m < h.commits.size := fun m hm =>
    Nat.lt_of_le_of_lt (hs.ancestor_le ((hmem m).1 hm)) htip
  refine ⟨(h.logOrder tip).reverse, ⟨?_, ?_, hmem, List.pairwise_reverse.2 horder⟩, ?_⟩
  · exact fun m hm => get?_isSome_iff.2 (hlt m hm)
  · have hnodup : (h.logOrder tip).reverse.Nodup :=
      List.nodup_reverse.2 (hperm.nodup_iff.2 (nodup_reachable h tip))
    exact hnodup.map_on fun a ha b hb => hs.id_inj (hlt a ha) (hlt b hb)
  · rw [log, List.map_reverse]

/-- Two commits on one and their merge, which is dated before all of them. -/
example :
    let commit := fun (parents : List Nat) (seconds : Int) (message : String) =>
      (⟨[], parents, ⟨"Ada", "ada@example.com", seconds, 0⟩, message⟩ : CommitObject)
    (⟨#[commit [] 5 "start", commit [0] 9 "one", commit [0] 2 "two", commit [1, 2] 1 "join"], #[]⟩ :
      History).log 3 = ["start", "two", "one", "join"] := by
  decide +kernel

end ReleaseHistory.Git.History
