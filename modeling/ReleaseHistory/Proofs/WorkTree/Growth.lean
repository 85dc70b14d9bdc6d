import Mathlib.Data.List.Induction
import ReleaseHistory.Proofs.WorkTree.Calls
import ReleaseHistory.Proofs.WorkTree.Recorder

/-!
# How histories of a recorder grow

A call either leaves the branches of a recorder as they are, adds to the history of the branch that
is checked out, or gives a branch the history of another one. So all histories begin alike, and a
history is only lost where a branch is created that is there already.
-/

namespace ReleaseHistory.Recorder

open Operation WorkTree

variable {r t : Recorder} {call : Call}

/-! ### What a call does to the branches -/

/-- What a call does to the branches and to what is checked out. -/
inductive Moves (r : Recorder) : Call → Recorder → Prop
  | still {call : Call} {t : Recorder} (branches : t.branches = r.branches)
      (current : t.current = r.current) : Moves r call t
  | checkout {name : String} {log : List String} {t : Recorder} (there : r.history? name = some log)
      (branches : t.branches = r.branches) (current : t.current = name) : Moves r (.checkout name) t
  | create {name start : String} {log : List String} {t : Recorder}
      (there : r.history? start = some log) (branches : t.branches = put name log r.branches)
      (current : t.current = name) : Moves r (.createBranch name start) t
  /-- The first commit of the branch that is checked out. -/
  | begin {call : Call} {entry : String} {t : Recorder} (unborn : r.history? r.current = none)
      (branches : t.branches = put r.current [entry] r.branches) (current : t.current = r.current) :
      Moves r call t
  | extend {call : Call} {log more : List String} {t : Recorder}
      (there : r.history? r.current = some log)
      (branches : t.branches = put r.current (log ++ more) r.branches)
      (current : t.current = r.current) : Moves r call t

theorem moves_merge (r : Recorder) (branch : String) (mode : MergeMode) :
    Moves r (.merge branch mode) (Call.after r (.merge branch mode)) := by
  have hafter : Call.after r (.merge branch mode) = (on (WorkTree.merge branch mode) r).2 := rfl
  rw [hafter]
  rcases merge_cases r branch mode with ⟨_, hon⟩ | ⟨source, target, joined, _, -, ht, hjoins, hon⟩
  · rw [hon]
    exact .still rfl rfl
  · rw [hon]
    cases hjoins with
    | forward behind =>
      obtain ⟨more, rfl⟩ := behind
      exact .extend ht rfl rfl
    | commit c => exact .extend ht (by rw [List.append_assoc]) rfl

theorem moves_after (r : Recorder) (call : Call) : Moves r call (call.after r) := by
  cases call with
  | createBranch name start =>
    rw [Call.after, on_createBranch]
    split
    · rename_i log hlog
      exact .create hlog rfl rfl
    · exact .still rfl rfl
  | checkout name =>
    rw [Call.after, on_checkout]
    split
    · rename_i log hlog
      exact .checkout hlog rfl rfl
    · exact .still rfl rfl
  | commit message time =>
    rw [Call.after, on_commit]
    cases hlog : r.history? r.current with
    | none => exact .begin hlog rfl rfl
    | some log => exact .extend hlog rfl rfl
  | merge branch mode => exact moves_merge r branch mode
  | tag name message time =>
    rw [Call.after, on_tag]
    split
    · exact .still rfl rfl
    · exact .still rfl rfl
  | log branch =>
    have hon : on (WorkTree.log branch) r = on (history branch) r := rfl
    rw [Call.after, hon, on_history]
    split
    · exact .still rfl rfl
    · exact .still rfl rfl
  | currentBranch => exact .still rfl rfl
  | branchExists name => exact .still rfl rfl
  | readText path => exact .still rfl rfl
  | writeText path text => exact .still rfl rfl
  | tags => exact .still rfl rfl

theorem history?_of_branches (h : t.branches = r.branches) (branch : String) :
    t.history? branch = r.history? branch := by
  rw [history?, h, history?]

theorem history?_of_put {name : String} {log : List String}
    (h : t.branches = put name log r.branches) (branch : String) :
    t.history? branch = if branch = name then some log else r.history? branch := by
  rw [history?, h, lookup_put, history?]

/-! ### Histories that grow -/

/-- Every history of the first recorder begins one of the second. -/
def Grows (r t : Recorder) : Prop :=
  ∀ branch log, r.history? branch = some log → ∃ later, t.history? branch = some later ∧ log <+: later

theorem Grows.refl (r : Recorder) : r.Grows r :=
  fun _ log hlog => ⟨log, hlog, List.prefix_rfl⟩

theorem Grows.trans {u : Recorder} (hrt : r.Grows t) (htu : t.Grows u) : r.Grows u := by
  intro branch log hlog
  obtain ⟨later, hlater, hprefix⟩ := hrt branch log hlog
  obtain ⟨last, hlast, hprefix'⟩ := htu branch later hlater
  exact ⟨last, hlast, hprefix.trans hprefix'⟩

theorem Grows.of_branches (h : t.branches = r.branches) : r.Grows t := by
  intro branch log hlog
  rw [← history?_of_branches h] at hlog
  exact ⟨log, hlog, List.prefix_rfl⟩

theorem Grows.of_put {name : String} {later : List String}
    (h : t.branches = put name later r.branches)
    (hlater : ∀ log, r.history? name = some log → log <+: later) : r.Grows t := by
  intro branch log hlog
  rw [history?_of_put h]
  split
  · rename_i heq
    rw [heq] at hlog
    exact ⟨later, rfl, hlater log hlog⟩
  · exact ⟨log, hlog, List.prefix_rfl⟩

/-- A call that does not create a branch that is there. -/
def Spares (r : Recorder) (call : Call) : Prop :=
  ∀ name start, call = .createBranch name start → r.history? name = none

theorem grows_after (h : r.Spares call) : r.Grows (call.after r) := by
  cases moves_after r call with
  | still branches current => exact .of_branches branches
  | checkout there branches current => exact .of_branches branches
  | create there branches current =>
    apply Grows.of_put branches
    intro log hlog
    rw [h _ _ rfl] at hlog
    cases hlog
  | begin unborn branches current =>
    apply Grows.of_put branches
    intro log hlog
    rw [unborn] at hlog
    cases hlog
  | extend there branches current =>
    apply Grows.of_put branches
    intro log hlog
    rw [there] at hlog
    cases hlog
    exact List.prefix_append _ _

/-! ### Histories that begin alike -/

/-- No branch is there yet. -/
structure Unborn (r : Recorder) : Prop where
  current : r.current = mainBranch
  branches : ∀ branch, r.history? branch = none

/-- The main branch and the one that is checked out are there, and all histories begin alike. -/
structure Rooted (first : String) (r : Recorder) : Prop where
  main : (r.history? mainBranch).isSome = true
  current : (r.history? r.current).isSome = true
  begins : ∀ branch log, r.history? branch = some log → log.head? = some first

theorem unborn_new : Unborn new where
  current := rfl
  branches _ := rfl

theorem Rooted.put {first name : String} {log : List String} (h : Rooted first r)
    (hbranches : t.branches = put name log r.branches) (hcurrent : t.current = name)
    (hlog : log.head? = some first) : Rooted first t where
  main := by
    rw [history?_of_put hbranches]
    split
    · rfl
    · exact h.main
  current := by
    rw [history?_of_put hbranches, if_pos hcurrent]
    rfl
  begins := by
    intro branch other hother
    rw [history?_of_put hbranches] at hother
    split at hother
    · cases hother
      exact hlog
    · exact h.begins branch other hother

/-- As long as there is no branch, only a commit brings one about. -/
theorem Unborn.after (h : Unborn r) (call : Call) :
    Unborn (call.after r) ∨ ∃ first, Rooted first (call.after r) := by
  cases moves_after r call with
  | still branches current =>
    refine .inl ⟨current.trans h.current, fun branch => ?_⟩
    rw [history?_of_branches branches]
    exact h.branches branch
  | checkout there branches current =>
    rw [h.branches] at there
    cases there
  | create there branches current =>
    rw [h.branches] at there
    cases there
  | begin unborn branches current =>
    rename_i entry
    have hhistory := history?_of_put branches
    refine .inr ⟨entry, ⟨?_, ?_, ?_⟩⟩
    · rw [hhistory, if_pos h.current.symm]
      rfl
    · rw [hhistory, if_pos current]
      rfl
    · intro branch log hlog
      rw [hhistory] at hlog
      split at hlog
      · cases hlog
        rfl
      · rw [h.branches] at hlog
        cases hlog
  | extend there branches current =>
    rw [h.branches] at there
    cases there

theorem Rooted.after {first : String} (h : Rooted first r) (call : Call) :
    Rooted first (call.after r) := by
  cases moves_after r call with
  | still branches current =>
    have hhistory := history?_of_branches branches
    refine ⟨?_, ?_, ?_⟩
    · rw [hhistory]
      exact h.main
    · rw [hhistory, current]
      exact h.current
    · intro branch log hlog
      rw [hhistory] at hlog
      exact h.begins branch log hlog
  | checkout there branches current =>
    have hhistory := history?_of_branches branches
    refine ⟨?_, ?_, ?_⟩
    · rw [hhistory]
      exact h.main
    · rw [hhistory, current, there]
      rfl
    · intro branch log hlog
      rw [hhistory] at hlog
      exact h.begins branch log hlog
  | create there branches current => exact h.put branches current (h.begins _ _ there)
  | begin unborn branches current =>
    have hcurrent := h.current
    rw [unborn] at hcurrent
    cases hcurrent
  | extend there branches current =>
    apply h.put branches current
    rw [List.head?_append, h.begins _ _ there]
    rfl

/-- Whatever is called, there is no branch yet, or the main branch and the current one are there. -/
theorem unborn_or_rooted_afterAll (calls : List Call) :
    Unborn (after new calls) ∨ ∃ first, Rooted first (after new calls) := by
  induction calls using List.reverseRecOn with
  | nil => exact .inl unborn_new
  | append_singleton calls call ih =>
    rw [after_concat]
    rcases ih with hunborn | ⟨first, hrooted⟩
    · exact hunborn.after call
    · exact .inr ⟨first, hrooted.after call⟩

theorem exists_first_afterAll (calls : List Call) :
    ∃ first, ∀ branch log, (after new calls).history? branch = some log → log.head? = some first := by
  rcases unborn_or_rooted_afterAll calls with hunborn | ⟨first, hrooted⟩
  · refine ⟨"", fun branch log hlog => ?_⟩
    rw [hunborn.branches] at hlog
    cases hlog
  · exact ⟨first, hrooted.begins⟩

end ReleaseHistory.Recorder
