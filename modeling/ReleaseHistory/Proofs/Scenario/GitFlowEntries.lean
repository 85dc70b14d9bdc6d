import ReleaseHistory.Proofs.Scenario.GitFlow

/-!
# Times and messages of the flow

A step takes its time from the clock before its actions are there, and words the merge it ends with
before the switch to the target. All the same the entries of the flow have the next times of the
clock, one each and in order, and a merge is worded for the branch that is checked out when it is
its turn: this holds of every step, whatever came before it, and so of all steps in a row.
-/

namespace ReleaseHistory

open Definition

/-- A merge that makes a commit has the message for the branch that it merges and the one that is
checked out. -/
def Definition.Worded (message : MergeMessage) (before : Definition) (a : Action) : Prop :=
  ∀ m, a = .merge m → m.fastForward = false →
    ∃ c, m.commit = some c ∧ c.message = message m.branch before.currentBranch

namespace Scenario.GitFlow

variable (o : Options) (message : MergeMessage) (c : Time.Clock)

/-! ### Messages of merges -/

theorem worded_mergeInto (before : Definition) (source target : String) (inChangelog : Bool) :
    (mergeInto message source target inChangelog c).1.Each
      fun within => Worded message (before ++ within) := by
  rw [mergeInto]
  refine each_cons.2 ⟨fun _ hm => (nomatch hm), each_cons.2 ⟨fun m hm _ => ?_, each_nil⟩⟩
  obtain rfl := Action.merge.inj hm
  refine ⟨_, rfl, ?_⟩
  rw [currentBranch_concat]
  rfl

/-- A step words its merge for the branch that it has checked out, whatever came before. -/
theorem Step.worded_actions (before : Definition) (s : Step) :
    (s.actions o message c).1.Each fun within => Worded message (before ++ within) := by
  cases s with
  | start text => exact each_cons.2 ⟨fun _ hm => (nomatch hm), each_nil⟩
  | branch name base => exact each_cons.2 ⟨fun _ hm => (nomatch hm), each_nil⟩
  | work angular emoji scipy => exact each_cons.2 ⟨fun _ hm => (nomatch hm), each_nil⟩
  | land source target => exact worded_mergeInto message c before source target true
  | promote source target => exact worded_mergeInto message c before source target _
  | catchUp target source =>
    -- a fast-forward makes no commit
    refine each_cons.2 ⟨fun _ hm => (nomatch hm), each_cons.2 ⟨fun m hm hforward => ?_, each_nil⟩⟩
    obtain rfl := Action.merge.inj hm
    cases hforward
  | release version => exact each_cons.2 ⟨fun _ hm => (nomatch hm), each_nil⟩

theorem worded_actions (before : Definition) (ss : List Step) :
    (actions o message ss c).1.Each fun within => Worded message (before ++ within) := by
  induction ss generalizing before c with
  | nil => exact each_nil
  | cons s ss ih =>
    have hrest := ih (s.actions o message c).2 (before ++ (s.actions o message c).1)
    simp only [List.append_assoc] at hrest
    exact each_append.2 ⟨s.worded_actions o message c before, hrest⟩

theorem worded_write : (write o message c).1.Each (Worded message) := by
  rw [write_fst]
  exact each_cons.2 ⟨fun _ hm => (nomatch hm), worded_actions o message c [_] steps⟩

/-! ### Times of entries -/

theorem write_snd : (write o message c).2 = (Time.Clock.nextMany 24 c).2 := by
  rw [← entries_steps, ← times_actions o message steps c]
  rfl

theorem length_times_write : (times (write o message c).1).length = 24 := by
  rw [times_write, Time.Clock.length_nextMany]

/-- The entries of the flow have the next times of the clock, each its own and in order, and the
clock goes on after the last of them. Every merge that makes a commit is worded for the branch that
is checked out. -/
theorem entries_of_write :
    (times (write o message c).1, (write o message c).2) =
        Time.Clock.nextMany (times (write o message c).1).length c ∧
      (write o message c).2 = { c with ticks := c.ticks + (times (write o message c).1).length } ∧
      (write o message c).1.Each (Worded message) := by
  have hnext : (times (write o message c).1, (write o message c).2) =
      Time.Clock.nextMany (times (write o message c).1).length c := by
    rw [length_times_write, times_write, write_snd]
  refine ⟨hnext, ?_, worded_write o message c⟩
  rw [Time.Clock.nextMany_eq] at hnext
  exact (Prod.mk.inj hnext).2

end Scenario.GitFlow

end ReleaseHistory
