import ReleaseHistory.Proofs.WorkTree.Trace
import ReleaseHistory.Proofs.WorkTree.Repository

/-!
# Where stores are

No operation on files makes a store, and none changes one but for a text that is put into it. So no
operation of a repository makes a store: there are stores only where there were some when the
repository was made, and where its own one is.
-/

namespace ReleaseHistory

open Operation

namespace FileTree

variable {P : Location → Git.Store → Prop} {t : FileTree} {l : Location} {e : Entry}

/-- Stores are at locations of one kind only. -/
def StoresIn (P : Location → Prop) (t : FileTree) : Prop :=
  ∀ l s, (l, Entry.store s) ∈ t.entries → P l

/-- Every store has a property, which may speak of where it is. -/
def EveryStore (P : Location → Git.Store → Prop) (t : FileTree) : Prop :=
  ∀ l s, (l, Entry.store s) ∈ t.entries → P l s

theorem EveryStore.put (ht : t.EveryStore P) (he : ∀ s, e = .store s → P l s) :
    (t.put l e).EveryStore P := by
  intro k s hs
  rcases List.mem_cons.1 hs with heq | hs
  · obtain ⟨rfl, hstore⟩ := Prod.mk.inj heq
    exact he s hstore.symm
  · exact ht k s (List.mem_filter.1 hs).1

theorem EveryStore.erase (ht : t.EveryStore P) (l : Location) : (t.erase l).EveryStore P :=
  fun k s hs => ht k s (List.mem_filter.1 hs).1

theorem EveryStore.putText {text : String} (ht : t.EveryStore P)
    (hwrite : ∀ k s path u, P k s → s.writeFile? path text = some u → P k u) (l : Location) :
    (t.putText l text).EveryStore P := by
  have hput : (t.put l (.text text)).EveryStore P := ht.put fun _ h => nomatch h
  unfold FileTree.putText
  split
  · rename_i m s path habove
    split
    · rename_i u hu
      refine ht.put fun v hv => ?_
      obtain rfl := Entry.store.inj hv
      exact hwrite m s path u (ht m s (exists_of_storeAbove? habove).1) hu
    · exact hput
  · exact hput

theorem preserves_createDirectories (l : Location) (parts : List String) :
    Preserves (EveryStore P) (createDirectories l parts) := by
  induction parts generalizing l with
  | nil => exact preserves_pure l
  | cons part parts ih =>
    intro t ht
    rw [on_createDirectories_cons]
    split
    · exact ht
    · split
      · exact ih _ _ (ht.put fun _ h => nomatch h)
      · split
        · exact ih _ t ht
        · exact ht

theorem preserves_writeText {text : String} (base : Location) (path : String)
    (hwrite : ∀ k s path u, P k s → s.writeFile? path text = some u → P k u) :
    Preserves (EveryStore P) (writeText base path text) := by
  have hhere : Preserves (EveryStore P) (writeHere base path text) := by
    refine preserves_get_bind fun t ht => ?_
    dsimp only
    split
    · exact ht
    · split
      · exact ht
      · exact ht.putText hwrite _
  refine preserves_get_bind fun t ht => ?_
  dsimp only
  split
  · exact ht
  · split
    · exact ht
    · exact (preserves_createDirectories _ _).bind (fun _ => hhere) t ht

end FileTree

namespace Repository

open Git
open FileTree (StoresIn)

/-! ### Checking out -/

section Files

variable {P : Location → Store → Prop}

theorem everyStore_prune (root parts : Location) {t : FileTree} (ht : t.EveryStore P) :
    (prune root parts t).EveryStore P := by
  induction parts generalizing t with
  | nil => exact ht
  | cons part parts ih =>
    unfold prune
    dsimp only
    split
    · exact ih (ht.erase _)
    · exact ht

theorem everyStore_removeFile (root : Location) (path : String) {t : FileTree}
    (ht : t.EveryStore P) : (removeFile root path t).EveryStore P := by
  unfold removeFile
  dsimp only
  split
  · exact everyStore_prune root _ (ht.erase _)
  · exact ht

theorem everyStore_makeDirectories (root way parts : Location) {t : FileTree}
    (ht : t.EveryStore P) : (makeDirectories root t way parts).EveryStore P := by
  induction parts generalizing way t with
  | nil => exact ht
  | cons part parts ih =>
    rw [makeDirectories]
    apply ih
    split
    · exact ht
    · exact (ht.erase _).put fun _ h => absurd h (by simp)

theorem everyStore_writeFile (root : Location) (path text : String) {t : FileTree}
    (ht : t.EveryStore P) : (writeFile root t path text).EveryStore P :=
  ((everyStore_makeDirectories root [] _ ht).erase _).put fun _ h => nomatch h

theorem everyStore_replaceFiles (root : Location) (before after : Snapshot) {t : FileTree}
    (ht : t.EveryStore P) : (replaceFiles root before after t).EveryStore P := by
  rw [replaceFiles_eq]
  refine List.foldlRecOn _ _ ?_ fun _ h entry _ => everyStore_writeFile root entry.1 entry.2 h
  exact List.foldlRecOn _ _ ht fun _ h entry _ => everyStore_removeFile root entry.1 h

end Files

variable {P : Location → Prop} {α : Type}

/-- Stores are at locations of one kind, among them that of the repository. -/
def Confined (P : Location → Prop) (r : Repository) : Prop :=
  P (storeLocation r.root) ∧ r.files.StoresIn P

/-! ### Operations -/

theorem preserves_setStore (s : Store) : Preserves (Confined P) (setStore s) :=
  preserves_modify fun _ hr => ⟨hr.1, FileTree.EveryStore.put hr.2 fun _ _ => hr.1⟩

theorem preserves_setStore? (found : Option Store) : Preserves (Confined P) (setStore? found) := by
  cases found with
  | none => exact preserves_throw _
  | some s => exact preserves_setStore s

theorem preserves_onFiles {f : Location → Operation FileTree α}
    (hf : ∀ root, Preserves (StoresIn P) (f root)) : Preserves (Confined P) (onFiles f) := by
  intro r hr
  rw [on_onFiles]
  exact ⟨hr.1, hf r.root r.files hr.2⟩

theorem preserves_stage : Preserves (Confined P) stage := by
  refine preserves_get_bind fun r hr => ?_
  refine preserves_store.bind (fun s => ?_) r hr
  dsimp only
  split
  · exact preserves_throw _
  · exact (preserves_setStore _).bind fun _ => preserves_pure _

theorem preserves_checkoutSnapshot (snapshot : Snapshot) :
    Preserves (Confined P) (checkoutSnapshot snapshot) := by
  refine preserves_store.bind fun s => ?_
  refine (preserves_modify fun r hr => ?_).bind fun _ => preserves_setStore _
  exact ⟨hr.1, everyStore_replaceFiles r.root _ _ hr.2⟩

theorem preserves_checkout (name : String) : Preserves (Confined P) (checkout name) := by
  refine preserves_store.bind fun s => ?_
  split
  · exact preserves_throw _
  · split
    · exact preserves_throw _
    · refine (preserves_checkoutSnapshot _).bind fun _ => ?_
      exact preserves_store.bind fun _ => preserves_setStore? _

theorem preserves_createBranch (name start : String) :
    Preserves (Confined P) (createBranch name start) := by
  refine (preserves_tip start).bind fun n => preserves_store.bind fun s => ?_
  exact (preserves_setStore? _).bind fun _ => preserves_checkout name

theorem preserves_addCommit (c : CommitObject) : Preserves (Confined P) (addCommit c) := by
  refine preserves_store.bind fun s => ?_
  split
  · exact (preserves_setStore _).bind fun _ => preserves_pure _
  · exact preserves_throw _

theorem preserves_checkoutHead : Preserves (Confined P) checkoutHead := by
  refine preserves_headCommit.bind fun found => ?_
  split
  · exact preserves_store.bind fun s => preserves_checkoutSnapshot _
  · exact preserves_throw _

theorem preserves_commit (message time : String) : Preserves (Confined P) (commit message time) := by
  refine preserves_stage.bind fun snapshot => (preserves_signature time).bind fun signature => ?_
  exact preserves_headCommit.bind fun parent => preserves_addCommit _

theorem preserves_merge [Git.Merger] (branch : String) (mode : MergeMode) :
    Preserves (Confined P) (merge branch mode) := by
  refine preserves_currentBranch.bind fun current => (preserves_tip current).bind fun ours => ?_
  refine (preserves_tip branch).bind fun theirs => preserves_store.bind fun s => ?_
  cases mode with
  | fastForward =>
    dsimp only
    split
    · exact preserves_pure ()
    · split
      · exact (preserves_throw _).bind fun _ =>
          (preserves_setStore? _).bind fun _ => preserves_checkoutHead
      · exact (preserves_setStore? _).bind fun _ => preserves_checkoutHead
  | withCommit c =>
    have hcommit : ∀ r : Repository, Preserves (Confined P) (do
        let signature ← signature c.datetime
        let _ ← addCommit ⟨(r.merged s ours theirs).snapshot, [ours, theirs], signature, c.message⟩
        checkoutHead) := fun r =>
      (preserves_signature _).bind fun _ => (preserves_addCommit _).bind fun _ =>
        preserves_checkoutHead
    dsimp only
    refine preserves_get_bind fun r hr => ?_
    split
    · exact ((preserves_throw _).bind fun _ => hcommit r) r hr
    · exact hcommit r r hr

theorem preserves_tag (name message time : String) :
    Preserves (Confined P) (tag name message time) := by
  refine preserves_headCommit.bind fun found => ?_
  split
  · exact preserves_throw _
  · refine (preserves_signature time).bind fun signature => ?_
    dsimp only
    split
    · exact (preserves_throw _).bind fun _ => preserves_store.bind fun _ => preserves_setStore? _
    · exact preserves_store.bind fun _ => preserves_setStore? _

theorem confined_after [Git.Merger] {r : Repository} (call : WorkTree.Call) (hr : r.Confined P) :
    (call.after r).Confined P := by
  by_cases hasks : call.Asks
  · rwa [after_of_asks hasks]
  cases call with
  | createBranch name start => exact preserves_createBranch name start r hr
  | checkout name => exact preserves_checkout name r hr
  | writeText path text =>
    refine preserves_onFiles (fun root => ?_) r hr
    exact FileTree.preserves_writeText (P := fun l _ => P l) root path fun _ _ _ _ hplace _ => hplace
  | commit message time => exact preserves_commit message time r hr
  | merge branch mode => exact preserves_merge branch mode r hr
  | tag name message time => exact preserves_tag name message time r hr
  | _ => exact absurd trivial hasks

theorem confined_on [Git.Merger] {x : Operation (Traced Repository) α} {y : Operation Repository α}
    (hx : Traced.Traces x y) {r : Repository} (hr : r.Confined P) : (on y r).2.Confined P := by
  rw [← hx.after_callsOf r]
  exact List.foldlRecOn _ _ hr fun _ h call _ => confined_after call h

end Repository

end ReleaseHistory
