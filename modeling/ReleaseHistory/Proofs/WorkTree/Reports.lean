import ReleaseHistory.Proofs.Git.BranchName
import ReleaseHistory.Proofs.Git.LogOrder
import ReleaseHistory.Proofs.WorkTree.Founded

/-!
# What a repository reports

The branch that has been checked out is reported by its name, without the place of branches at its
front if it begins with that. The log of a branch tells of its tip and of all commits before it, each
of them once and the oldest first, whatever has been called and whatever the times of the commits are.
-/

namespace ReleaseHistory.Repository

open Operation Git
open RefName (InPlace headsPlace)

variable {r g : Repository} {s : Store} {name start branch : String}

/-! ### The branch that is checked out -/

/-- A checkout that succeeds leaves the name as it is given checked out, under the place of
branches. -/
theorem head_of_checkout (h : r.Founded) (hon : on (checkout name) r = (.ok (), g)) :
    ∃ t, g.store? = some t ∧ t.head = .branch (headsPlace ++ name) := by
  cases hs : r.store? with
  | none =>
    rw [checkout, on_bind, on_store_of_none hs] at hon
    cases hon
  | some s =>
    obtain ⟨_, hsound⟩ := h.store hs
    rw [on_checkout hs, headOf?_eq hsound] at hon
    split at hon
    · cases hon
    · rename_i target htarget
      split at hon
      · cases hon
      · cases hfull : RefName.branch? name with
        | none =>
          rw [hfull] at hon
          cases hon
        | some full =>
          -- no slash is repeated in a name that leads to something
          obtain ⟨-, rfl⟩ := RefName.kept_of_resolve hfull htarget
          rw [hfull] at hon
          cases hon
          exact ⟨_, store?_withStore _ _, rfl⟩

theorem head_of_createBranch (h : r.Founded) (hon : on (createBranch name start) r = (.ok (), g)) :
    ∃ t, g.store? = some t ∧ t.head = .branch (headsPlace ++ name) := by
  cases hs : r.store? with
  | none =>
    simp only [createBranch, tip, on_bind, on_store_of_none hs] at hon
    cases hon
  | some s =>
    rw [on_createBranch hs] at hon
    split at hon
    · cases hon
    · rename_i n hn
      split at hon
      · cases hon
      · rename_i t ht
        have htip := (h.store hs).tip?_lt (tipOf_eq_ok.1 hn)
        exact head_of_checkout (h.withStore ((h.store hs).createBranch htip ht)) hon

/-- A branch that has been checked out or created is reported without the place of branches at its
front, and so under the name that was given exactly if that does not begin with the place. -/
theorem currentBranch_of_checkedOut [Git.Merger] (h : r.Founded)
    (hon : on (WorkTree.checkout name) r = (.ok (), g) ∨
      ∃ start, on (WorkTree.createBranch name start) r = (.ok (), g)) :
    on WorkTree.currentBranch g = (.ok (RefName.shorten name), g) ∧
      ((on WorkTree.currentBranch g).1 = .ok name ↔ ¬InPlace name) := by
  obtain ⟨t, ht, hhead⟩ : ∃ t, g.store? = some t ∧ t.head = .branch (headsPlace ++ name) := by
    rcases hon with hon | ⟨start, hon⟩
    · exact head_of_checkout h hon
    · exact head_of_createBranch h hon
  have hcurrent : on WorkTree.currentBranch g = (.ok (RefName.shorten name), g) := by
    have hof : on WorkTree.currentBranch g = (currentOf t, g) := on_currentBranch ht
    rw [hof, currentOf, hhead]
    dsimp only
    rw [RefName.shorten_append]
  rw [hcurrent, Except.ok.injEq, RefName.shorten_eq_self_iff]
  exact ⟨rfl, Iff.rfl⟩

theorem founded_fresh : fresh.Founded :=
  founded_create (fun _ _ hs => absurd hs List.not_mem_nil) on_create_fresh

def started : List WorkTree.Call := [.commit "start" "2024-01-01T00:00:00Z"]

section

attribute [local instance] Git.Merger.builtIn

/-- In a new repository a branch is created after the first commit. -/
theorem currentBranch_dev : ∃ g, (WorkTree.after fresh started).Founded ∧
    on (WorkTree.createBranch "dev" "main") (WorkTree.after fresh started) = (.ok (), g) ∧
    on WorkTree.currentBranch g = (.ok "dev", g) := by
  have hfounded := founded_fresh.afterAll started
  have hresult : (on (WorkTree.createBranch "dev" "main") (WorkTree.after fresh started)).1 = .ok () := by
    decide +kernel
  have hon := on_eq (WorkTree.createBranch "dev" "main") (WorkTree.after fresh started)
  rw [hresult] at hon
  exact ⟨_, hfounded, hon, (currentBranch_of_checkedOut hfounded (.inr ⟨"main", hon⟩)).1⟩

/-- A branch that is created by a name that begins with the place of branches is reported by another
one. -/
theorem currentBranch_inPlace :
    (on (WorkTree.createBranch "refs/heads/dev" "main") (WorkTree.after fresh started)).1 = .ok () ∧
      (on WorkTree.currentBranch
        (WorkTree.after fresh (started ++ [.createBranch "refs/heads/dev" "main"]))).1 = .ok "dev" := by
  decide +kernel

end

/-! ### The log of a branch -/

theorem exists_tip_of_branchExists [Git.Merger]
    (h : (on (WorkTree.branchExists branch) r).1 = .ok true) :
    ∃ s tip, r.store? = some s ∧ s.tip? branch = some tip := by
  replace h : (on (branchExists branch) r).1 = .ok true := h
  cases hs : r.store? with
  | none =>
    have hon : on (branchExists branch) r = (.error .store, r) := by
      unfold branchExists
      split <;> simp only [on_bind, on_throw, on_store_of_none hs]
    rw [hon] at h
    cases h
  | some s =>
    rw [on_branchExists hs] at h
    dsimp only at h
    split at h
    · cases h
    · obtain ⟨tip, htip⟩ := Option.isSome_iff_exists.1 (Except.ok.inj h)
      exact ⟨s, tip, rfl, htip⟩

theorem Founded.on_log [Git.Merger] {tip : Nat} (h : r.Founded) (hs : r.store? = some s)
    (htip : s.tip? branch = some tip) : ∃ row, s.history.OldestFirst tip row ∧
      on (WorkTree.log branch) r = (.ok (row.map s.history.summary), r) := by
  have hfounded := h.store hs
  obtain ⟨row, hrow, hlog⟩ := History.exists_oldestFirst hfounded.history (hfounded.tip?_lt htip)
  refine ⟨row, hrow, ?_⟩
  rw [Repository.on_log hs, tipOf_eq_ok.2 htip, ← hlog]
  rfl

/-- After any run on a repository, the log of a branch that is there has the summary of its tip and of
each ancestor of it once and no other, with parents before their children. -/
theorem log_after_calls [Git.Merger] {t u : FileTree} {base : Location} {path : String}
    {i : Identity} (ht : t.EveryStore fun _ s => s.Founded)
    (hcreate : on (create base path i) t = (.ok r, u)) (calls : List WorkTree.Call)
    (branch : String)
    (hexists : (on (WorkTree.branchExists branch) (WorkTree.after r calls)).1 = .ok true) :
    ∃ s tip row, (WorkTree.after r calls).store? = some s ∧ s.tip? branch = some tip ∧
      s.history.OldestFirst tip row ∧
      on (WorkTree.log branch) (WorkTree.after r calls) =
        (.ok (row.map s.history.summary), WorkTree.after r calls) := by
  have hfounded := (founded_create ht hcreate).afterAll calls
  obtain ⟨s, tip, hs, htip⟩ := exists_tip_of_branchExists hexists
  obtain ⟨row, hrow, hlog⟩ := hfounded.on_log hs htip
  exact ⟨s, tip, row, hs, htip, hrow, hlog⟩

section

attribute [local instance] Git.Merger.builtIn

/-- The log of a branch that is created at the first commit. -/
theorem log_after_createBranch :
    (FileTree.new "/work").EveryStore (fun _ s => s.Founded) ∧
      on (create [] "repo" ⟨"Ada", "ada@example.com"⟩) (.new "/work") = (.ok fresh, fresh.files) ∧
      ∃ s tip row, (WorkTree.after fresh (started ++ [.createBranch "dev" "main"])).store? = some s ∧
        s.tip? "dev" = some tip ∧ s.history.OldestFirst tip row ∧
        row.map s.history.summary = ["start"] := by
  have hstores : (FileTree.new "/work").EveryStore fun _ s => s.Founded :=
    fun _ _ hs => absurd hs List.not_mem_nil
  have hlog : (on (WorkTree.log "dev")
      (WorkTree.after fresh (started ++ [.createBranch "dev" "main"]))).1 = .ok ["start"] := by
    decide +kernel
  obtain ⟨s, tip, row, hs, htip, hrow, hon⟩ :=
    log_after_calls hstores on_create_fresh (started ++ [.createBranch "dev" "main"]) "dev"
      (by decide +kernel)
  rw [hon] at hlog
  exact ⟨hstores, on_create_fresh, s, tip, row, hs, htip, hrow, Except.ok.inj hlog⟩

end

end ReleaseHistory.Repository
