import Mathlib.Data.List.Nodup
import ReleaseHistory.Proofs.Text.Split
import ReleaseHistory.Proofs.WorkTree.Growth

/-!
# What a recorder holds after any calls

Whatever is called, and whether it succeeds or is refused, a recorder has either no branch yet or both
its main branch and the one that is checked out. No history is empty and no tag is there twice. An
entry of a history is the first line of the message of a commit, or the whole message of a merge, so
that a history has a line feed in it only where a merge with a message of several lines was made.
-/

namespace ReleaseHistory.Recorder

open Operation WorkTree

variable {r t : Recorder} {call : Call} {branch e : String} {log : List String}

/-! ### What a call does to histories and tags -/

/-- An entry of some history. -/
def Holds (r : Recorder) (e : String) : Prop := ∃ branch log, r.history? branch = some log ∧ e ∈ log

/-- What a call enters into a history: a commit its summary, and a merge that succeeds its message. -/
inductive Enters (r : Recorder) : Call → String → Prop
  | commit (message time : String) : Enters r (.commit message time) (Text.firstLine message)
  | merge {source : String} {c : Commit}
      (succeeds : (on (WorkTree.merge source (.withCommit c)) r).1 = .ok ()) :
      Enters r (.merge source (.withCommit c)) c.message

/-- A call leaves histories and tags as they are, gives a branch a history of entries that were there
or are entered, or makes a new tag. -/
inductive Effect (r : Recorder) (call : Call) (t : Recorder) : Prop
  | quiet (branches : t.branches = r.branches) (tags : t.tags = r.tags)
  | writes {name : String} {log : List String} (branches : t.branches = put name log r.branches)
      (tags : t.tags = r.tags) (entries : ∀ e ∈ log, r.Holds e ∨ Enters r call e)
  | tags {name : String} (new : name ∉ r.tags) (branches : t.branches = r.branches)
      (tags : t.tags = r.tags ++ [name])

theorem effect_merge (r : Recorder) (branch : String) (mode : MergeMode) :
    Effect r (.merge branch mode) (Call.after r (.merge branch mode)) := by
  have hafter : Call.after r (.merge branch mode) = (on (WorkTree.merge branch mode) r).2 := rfl
  rw [hafter]
  rcases merge_cases r branch mode with ⟨_, hon⟩ | ⟨source, target, joined, _, hs, ht, hjoins, hon⟩
  · rw [hon]
    exact .quiet rfl rfl
  · rw [hon]
    refine .writes rfl rfl fun e he => ?_
    cases hjoins with
    | forward behind => exact .inl ⟨branch, source, hs, he⟩
    | commit c =>
      rcases List.mem_append.1 he with hmem | hnew
      · rcases List.mem_append.1 hmem with hours | htheirs
        · exact .inl ⟨r.current, target, ht, hours⟩
        · exact .inl ⟨branch, source, hs, (List.mem_filter.1 htheirs).1⟩
      · rw [List.mem_singleton.1 hnew]
        exact .inr (.merge (by rw [hon]))

theorem effect_after (r : Recorder) (call : Call) : Effect r call (call.after r) := by
  cases call with
  | createBranch name start =>
    rw [Call.after, on_createBranch]
    split
    · rename_i old hold
      exact .writes rfl rfl fun e he => .inl ⟨start, old, hold, he⟩
    · exact .quiet rfl rfl
  | checkout name =>
    rw [Call.after, on_checkout]
    split
    · exact .quiet rfl rfl
    · exact .quiet rfl rfl
  | commit message time =>
    rw [Call.after, on_commit]
    refine .writes rfl rfl fun e he => ?_
    rcases List.mem_append.1 he with hold | hnew
    · cases hcurrent : r.history? r.current with
      | none =>
        rw [hcurrent] at hold
        cases hold
      | some old =>
        rw [hcurrent] at hold
        exact .inl ⟨r.current, old, hcurrent, hold⟩
    · rw [List.mem_singleton.1 hnew]
      exact .inr (.commit message time)
  | merge branch mode => exact effect_merge r branch mode
  | tag name message time =>
    rw [Call.after, on_tag]
    split
    · exact .quiet rfl rfl
    · rename_i hnew
      exact .tags hnew rfl rfl
  | log branch =>
    have hon : on (WorkTree.log branch) r = on (history branch) r := rfl
    rw [Call.after, hon, on_history]
    split
    · exact .quiet rfl rfl
    · exact .quiet rfl rfl
  | currentBranch => exact .quiet rfl rfl
  | branchExists name => exact .quiet rfl rfl
  | readText path => exact .quiet rfl rfl
  | writeText path text => exact .quiet rfl rfl
  | tags => exact .quiet rfl rfl

/-! ### Branches and tags -/

/-- A branch is checked out that is there, unless there is none yet; histories have entries, and tags
are different from each other. -/
structure Consistent (r : Recorder) : Prop where
  checkedOut : ((∀ branch, r.history? branch = none) ∧ r.current = mainBranch) ∨
    ((r.history? mainBranch).isSome = true ∧ (r.history? r.current).isSome = true)
  nonempty : ∀ branch log, r.history? branch = some log → log ≠ []
  tags : r.tags.Nodup

theorem nodup_tags_afterAll (calls : List Call) : (after new calls).tags.Nodup := by
  induction calls using List.reverseRecOn with
  | nil => exact List.nodup_nil
  | append_singleton calls call ih =>
    rw [after_concat]
    cases effect_after (after new calls) call with
    | quiet branches tags => rwa [tags]
    | writes branches tags entries => rwa [tags]
    | tags new branches tags =>
      rw [tags, ← List.concat_eq_append]
      exact List.Nodup.concat new ih

/-- Whatever is called on a new recorder, and whether it succeeds or is refused: there is no branch and
the main one is checked out, or both that one and the current one are there; every branch has entries,
and no tag is there twice. -/
theorem consistent_afterAll (calls : List Call) : (after new calls).Consistent where
  checkedOut := by
    rcases unborn_or_rooted_afterAll calls with hunborn | ⟨first, hrooted⟩
    · exact .inl ⟨hunborn.branches, hunborn.current⟩
    · exact .inr ⟨hrooted.main, hrooted.current⟩
  nonempty := by
    obtain ⟨first, hfirst⟩ := exists_first_afterAll calls
    rintro branch log hlog rfl
    cases hfirst branch [] hlog
  tags := nodup_tags_afterAll calls

/-! ### Entries -/

/-- An entry after a call was one before it, or is entered by the call. -/
theorem holds_after (h : (call.after r).Holds e) : r.Holds e ∨ Enters r call e := by
  obtain ⟨branch, log, hlog, he⟩ := h
  cases effect_after r call with
  | quiet branches tags =>
    rw [history?_of_branches branches] at hlog
    exact .inl ⟨branch, log, hlog, he⟩
  | tags new branches tags =>
    rw [history?_of_branches branches] at hlog
    exact .inl ⟨branch, log, hlog, he⟩
  | writes branches tags entries =>
    rw [history?_of_put branches] at hlog
    split at hlog
    · cases hlog
      exact entries e he
    · exact .inl ⟨branch, log, hlog, he⟩

theorem exists_enters {calls : List Call} (h : (after new calls).Holds e) :
    ∃ before call later, calls = before ++ call :: later ∧ Enters (after new before) call e := by
  induction calls using List.reverseRecOn with
  | nil =>
    obtain ⟨branch, log, hlog, -⟩ := h
    cases hlog
  | append_singleton calls call ih =>
    rw [after_concat] at h
    rcases holds_after h with hold | hnew
    · obtain ⟨before, earlier, later, rfl, henters⟩ := ih hold
      exact ⟨before, earlier, later ++ [call], by simp, henters⟩
    · exact ⟨calls, call, [], rfl, hnew⟩

theorem holds_message {source : String} {c : Commit}
    (h : (on (WorkTree.merge source (.withCommit c)) r).1 = .ok ()) :
    ∃ log, (Call.after r (.merge source (.withCommit c))).history? r.current = some log ∧
      log.getLast? = some c.message := by
  rw [Call.after]
  rcases merge_cases r source (.withCommit c) with ⟨_, hon⟩ | ⟨_, _, _, _, -, -, hjoins, hon⟩
  · rw [hon] at h
    cases h
  · rw [hon]
    cases hjoins with
    | commit c => exact ⟨_, (history?_of_put rfl _).trans (if_pos rfl), List.getLast?_concat⟩

theorem log_eq_ok : (on (WorkTree.log branch) r).1 = .ok log ↔ r.history? branch = some log := by
  have hon : on (WorkTree.log branch) r = on (history branch) r := rfl
  rw [hon, on_history]
  cases r.history? branch <;> simp

/-- After any calls an entry of a log is one line, unless it is the message of a merge among the calls
that has succeeded; and each merge with a commit that succeeds puts its message, be it of one line or
of several, at the end of the log of the current branch. -/
theorem lines_of_log (calls : List Call) :
    (∀ branch log, (on (WorkTree.log branch) (after new calls)).1 = .ok log → ∀ e ∈ log,
      '\n' ∉ e.toList ∨ ∃ before source c later,
        calls = before ++ .merge source (.withCommit c) :: later ∧
        (on (WorkTree.merge source (.withCommit c)) (after new before)).1 = .ok () ∧ e = c.message) ∧
    ∀ source c, (on (WorkTree.merge source (.withCommit c)) (after new calls)).1 = .ok () →
      ∃ log, (on (WorkTree.log (after new calls).current)
          (after new (calls ++ [.merge source (.withCommit c)]))).1 = .ok log ∧
        log.getLast? = some c.message := by
  constructor
  · intro branch log hlog e he
    obtain ⟨before, call, later, hcalls, henters⟩ :=
      exists_enters ⟨branch, log, log_eq_ok.1 hlog, he⟩
    cases henters with
    | commit message time => exact .inl (Text.not_mem_firstLine message)
    | merge succeeds => exact .inr ⟨before, _, _, later, hcalls, succeeds, rfl⟩
  · intro source c hsucceeds
    obtain ⟨log, hlog, hlast⟩ := holds_message hsucceeds
    refine ⟨log, ?_, hlast⟩
    rw [after_concat]
    exact log_eq_ok.2 hlog

/-- A merge of two branches with a message of three lines. -/
def explained : List Call :=
  [.commit "start" "2024-01-01T00:00:00+00:00", .createBranch "dev" "main",
    .commit "one" "2024-01-01T00:00:01+00:00", .checkout "main",
    .merge "dev" (.withCommit ⟨"join\n\nbody", "2024-01-01T00:00:02+00:00", false⟩)]

/-- The log of the branch ends with the three lines as one entry. -/
theorem log_explained :
    (on (WorkTree.log "main") (after new explained)).1 = .ok ["start", "one", "join\n\nbody"] ∧
      '\n' ∈ "join\n\nbody".toList :=
  ⟨log_eq_ok.2 (by decide +kernel), by decide⟩

end ReleaseHistory.Recorder
