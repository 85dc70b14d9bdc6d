import ReleaseHistory.Proofs.Git.Merger
import ReleaseHistory.Proofs.WorkTree.Orderly

/-!
# What a merge does to a repository

A fast-forward succeeds exactly if the branch comes from the one that is checked out. A merge with a
commit that has no conflict and a time that can be read adds one commit to the branch that is checked
out, with the files that the merger makes of those of the two branches. Nothing else of the branches
and tags changes, and a merge that is refused as one leaves the repository as it was.
-/

namespace ReleaseHistory

open Operation Git

namespace Repository

open FileTree (Named)
open RefName (InPlace headsPlace)

variable {start r : Repository} {i : Identity} {s t u : Store} {objects : List Encoded}
  {current branch : String} {ours theirs n : Nat} {c : Commit} {object : CommitObject}

/-! ### What a merge comes to -/

/-- Nothing but one branch has changed. -/
structure OnlyBranch (current : String) (s t : Store) : Prop where
  head : t.head = s.head
  tags : t.tags = s.tags
  branches : ∀ key, key ≠ headsPlace ++ current → t.branches.lookup key = s.branches.lookup key

theorem OnlyBranch.refl : OnlyBranch current s s := ⟨rfl, rfl, fun _ _ => rfl⟩

theorem OnlyBranch.of_same (h : OnlyBranch current s t) (hbranches : u.branches = t.branches)
    (htags : u.tags = t.tags) (hhead : u.head = t.head) : OnlyBranch current s u where
  head := hhead.trans h.head
  tags := htags.trans h.tags
  branches := fun key hkey => by rw [hbranches, h.branches key hkey]

/-- A commit is at the tip of a branch that has the ends of two lines of history as its parents, the
files of their merge, and no ancestors but the commits of the two lines. No other commit is new. -/
structure Joined [Merger] (r : Repository) (s t : Store) (current message : String)
    (ours theirs n : Nat) (d : CommitObject) : Prop where
  tip : t.tip? current = some n
  get : t.history.get? n = some d
  parents : d.parents = [ours, theirs]
  message : d.message = message
  tree : d.snapshot.id = (r.merged s ours theirs).snapshot.id
  merges : s.history.Merges (Unattributed r.files r.root s) ours theirs
    (r.merged s ours theirs).snapshot
  line : ∀ m, t.history.Ancestor m n ↔ m = n ∨ s.history.Ancestor m ours ∨ s.history.Ancestor m theirs
  beyond : ¬s.history.Ancestor n ours ∧ ¬s.history.Ancestor n theirs
  grown : s.history.Extends t.history
  single : ∀ m e, t.history.get? m = some e → m ≠ n → s.history.get? m = some e

/-! ### Fast-forwards -/

theorem exists_checkoutHead (hs : r.store? = some t) (hhead : t.head = .branch (headsPlace ++ current))
    (hn : t.branches.lookup (headsPlace ++ current) = some n) :
    ∃ r' u, on checkoutHead r = (.ok (), r') ∧ r'.store? = some u ∧ u.history = t.history ∧
      u.branches = t.branches ∧ u.tags = t.tags ∧ u.head = t.head := by
  rw [on_checkoutHead hs, Store.headCommit_of_branch hhead hn]
  exact ⟨_, _, rfl, store?_withStore _ _, rfl, rfl, rfl, rfl⟩

theorem Joined.of_same [Git.Merger] {message : String} {d : CommitObject}
    (h : Joined r s t current message ours theirs n d) (hhistory : u.history = t.history)
    (hbranches : u.branches = t.branches) : Joined r s u current message ours theirs n d where
  tip := by rw [Store.tip?, hbranches]; exact h.tip
  get := by rw [hhistory, h.get]
  parents := h.parents
  message := h.message
  tree := h.tree
  merges := h.merges
  line := by rw [hhistory]; exact h.line
  beyond := h.beyond
  grown := by rw [hhistory]; exact h.grown
  single := by rw [hhistory]; exact h.single

section

attribute [local instance] Git.Merger.builtIn Git.Merger.lawful_builtIn

end

end Repository

end ReleaseHistory
