import Mathlib
import ReleaseHistory.Scenario.GitFlow
import ReleaseHistory.Proofs.Definition.Alike
import ReleaseHistory.Proofs.Time.Clock

/-!
# When the flow is accepted

Whatever the options, the wording of merges and the clock, the actions of the same steps are alike
but for their times, and their times are the next ones of the clock in a row. So whether a check
accepts the flow depends on the last of its times alone.
-/

namespace ReleaseHistory

/-! ### Times from a clock -/

/-- The texts that a clock hands out from some number on are in order exactly if the last of them
can be read. -/
theorem Time.Clock.chronological_iff {text : String} {c : Time.Clock}
    (h : Time.Clock.parse text = .ok c) (n m : Nat) :
    Definition.Chronological ((List.range (m + 1)).map fun k => c.stamp (n + k)) ↔
      (c.start.addSeconds (n + m)).localDate.year ≤ 9999 := by
  constructor
  · rintro ⟨stamps, hparse, -⟩
    have hlast := congrArg (fun l => l[m]?) hparse
    simp only [List.getElem?_map, List.getElem?_range (Nat.lt_succ_self m), Option.map_some] at hlast
    cases hm : stamps[m]? with
    | none => simp [hm] at hlast
    | some u =>
      rw [hm, Option.map_some, Option.some.injEq, parse_stamp_iff h] at hlast
      exact hlast.1
  · intro hyear
    refine ⟨(List.range (m + 1)).map fun k => (c.start.addSeconds (n + k)).whole, ?_, ?_⟩
    · -- no time lies in a later year than the last one
      rw [List.map_map, List.map_map]
      refine List.map_congr_left fun k hk => ?_
      have hle : n + k ≤ n + m := by
        have := List.mem_range.1 hk
        omega
      have hfirst := Int.le_trans (c.start.year_addSeconds_mono hle) hyear
      rw [Function.comp_apply, Function.comp_apply, parse_stamp_iff h]
      exact ⟨hfirst, rfl⟩
    · rw [List.pairwise_map]
      refine List.pairwise_lt_range.imp fun {j k} hjk => ?_
      exact c.start.before_addSeconds (Nat.add_lt_add_left hjk n)

namespace Scenario.GitFlow

open Definition

/-! ### Steps -/

/-- The number of times that a step takes from the clock. -/
def Step.entries : Step → Nat
  | .branch .. => 0
  | .catchUp .. => 0
  | _ => 1

theorem Step.times_actions (o : Options) (message : MergeMessage) (c : Time.Clock) (s : Step) :
    (times (s.actions o message c).1, (s.actions o message c).2) =
      Time.Clock.nextMany s.entries c := by
  cases s <;> rfl

theorem Step.alike_actions (o o' : Options) (message message' : MergeMessage) (c c' : Time.Clock)
    (s : Step) :
    List.Forall₂ Alike (s.actions o message c).1 (s.actions o' message' c').1 := by
  cases s with
  | start text => exact .cons (.commits (Eq.refl 1)) .nil
  | branch name base => exact .cons (.checkout _) .nil
  | work angular emoji scipy => exact .cons (.commits (Eq.refl 1)) .nil
  | land source target => exact .cons (.checkout _) (.cons (.merge rfl rfl rfl) .nil)
  | promote source target => exact .cons (.checkout _) (.cons (.merge rfl rfl rfl) .nil)
  | catchUp target source => exact .cons (.checkout _) (.cons (.merge rfl rfl rfl) .nil)
  | release version => exact .cons (.release _ _ _ _) .nil

/-! ### Flows -/

/-- The number of times that some steps take from the clock. -/
def entries (ss : List Step) : Nat := (ss.map Step.entries).sum

theorem times_actions (o : Options) (message : MergeMessage) (ss : List Step) (c : Time.Clock) :
    (times (actions o message ss c).1, (actions o message ss c).2) =
      Time.Clock.nextMany (entries ss) c := by
  induction ss generalizing c with
  | nil => rfl
  | cons s ss ih =>
    obtain ⟨htimes, hclock⟩ := Prod.mk.inj (s.times_actions o message c)
    obtain ⟨hrest, hafter⟩ := Prod.mk.inj (ih (s.actions o message c).2)
    rw [entries, List.map_cons, List.sum_cons, Time.Clock.nextMany_add, ← hclock]
    simp only [actions, Definition.times, List.flatMap_append, Prod.mk.injEq]
    exact ⟨congrArg₂ (· ++ ·) htimes hrest, hafter⟩

theorem alike_actions (o o' : Options) (message message' : MergeMessage) (ss : List Step)
    (c c' : Time.Clock) :
    List.Forall₂ Alike (actions o message ss c).1 (actions o' message' ss c').1 := by
  induction ss generalizing c c' with
  | nil => exact .nil
  | cons s ss ih =>
    exact List.rel_append (s.alike_actions o o' message message' c c') (ih _ _)

/-! ### Patterns -/

def branches : List String :=
  ["main", "beta", "dev", "feat/feature-1", "fix/patch-1", "fix/patch-2", "feat/feature-2"]

/-- An engine reads the patterns of the flow: among its branches, a name between anchors matches the
branch of that name, and the pattern of features those whose names begin as it says. -/
structure ReadsPolicy [Pattern.Engine] : Prop where
  whole : ∀ name ∈ ["main", "beta", "dev"], ∀ branch ∈ branches,
    (Pattern.Engine.compile? ("^" ++ name ++ "$")).map (· branch) = some (decide (branch = name))
  features : ∀ branch ∈ branches,
    (Pattern.Engine.compile? "^feat/.+").map (· branch) = some (branch.startsWith "feat/")

section

attribute [local instance] Pattern.Engine.builtIn

theorem readsPolicy_builtIn : ReadsPolicy where
  whole := by decide +kernel
  features := by decide +kernel

end

theorem matches?_eq {E F : Pattern.Engine} (hE : @ReadsPolicy E) (hF : @ReadsPolicy F) :
    ∀ group ∈ policy.groups, ∀ branch ∈ branches,
      @BranchPolicy.matches? E group.2 branch = @BranchPolicy.matches? F group.2 branch := by
  have hgroups : policy.groups = [("beta", ⟨"^beta$", true, some "beta"⟩),
      ("dev", ⟨"^dev$", true, some "alpha"⟩), ("features", ⟨"^feat/.+", true, some "rev"⟩),
      ("main", ⟨"^main$", false, none⟩)] := by decide
  have hwhole := fun name hname branch hbranch =>
    (@ReadsPolicy.whole E hE name hname branch hbranch).trans
      (@ReadsPolicy.whole F hF name hname branch hbranch).symm
  rw [hgroups]
  intro group hgroup branch hbranch
  simp only [List.mem_cons, List.not_mem_nil, or_false] at hgroup
  rcases hgroup with rfl | rfl | rfl | rfl
  · exact hwhole "beta" (by decide) branch hbranch
  · exact hwhole "dev" (by decide) branch hbranch
  · exact (@ReadsPolicy.features E hE branch hbranch).trans
      (@ReadsPolicy.features F hF branch hbranch).symm
  · exact hwhole "main" (by decide) branch hbranch

/-! ### The whole flow -/

/-- The flow under some options, from a clock that stands at the start of 1970. -/
def epochFlow : Definition := (write (.ofConvention .angular) .usual (.ofStart ⟨0, 0, 0⟩)).1

theorem check_epochFlow [Pattern.Engine] (h : ReadsPolicy) : epochFlow.check = .ok () := by
  have hbuiltIn : @check .builtIn epochFlow = .ok () :=
    Except.toOption_eq_some.1 (by decide +kernel)
  have htargets : ∀ branch ∈ mainBranch :: epochFlow.checkouts.map Checkout.target,
      branch ∈ branches := by decide +kernel
  refine check_of_agree (fun c hc group hgroup branch hbranch => ?_) hbuiltIn
  have hconfiguration : c = configuration (.ofConvention .angular) := by
    rw [← mem_configurations] at hc
    exact List.mem_singleton.1 hc
  rw [hconfiguration] at hgroup
  exact matches?_eq readsPolicy_builtIn h group hgroup branch (htargets branch hbranch)

theorem entries_steps : entries steps = 24 := by
  decide

theorem write_fst (o : Options) (message : MergeMessage) (c : Time.Clock) :
    (write o message c).1 = .configure (configuration o) :: (actions o message steps c).1 := by
  unfold write
  generalize actions o message steps c = written
  rfl

theorem times_write (o : Options) (message : MergeMessage) (c : Time.Clock) :
    times (write o message c).1 = (Time.Clock.nextMany 24 c).1 := by
  rw [write_fst, times_cons, show actionTimes (.configure (configuration o)) = [] from rfl,
    List.nil_append, ← entries_steps]
  exact congrArg Prod.fst (times_actions o message steps c)

theorem alike_write (o o' : Options) (message message' : MergeMessage) (c c' : Time.Clock) :
    List.Forall₂ Alike (write o message c).1 (write o' message' c').1 := by
  rw [write_fst, write_fst]
  exact .cons (.configure rfl) (alike_actions o o' message message' steps c c')

theorem times_write_nextMany (o : Options) (message : MergeMessage) {text : String} {c : Time.Clock}
    (h : Time.Clock.parse text = .ok c) (n : Nat) :
    times (write o message (Time.Clock.nextMany n c).2).1 =
      (List.range 24).map (fun k => c.stamp (n + k)) := by
  have hclock : (Time.Clock.nextMany n c).2 = { c with ticks := n } := by
    rw [Time.Clock.nextMany_eq, (Time.Clock.parse_eq_ok.1 h).2, Nat.zero_add]
  rw [hclock]
  simp only [times_write, Time.Clock.nextMany_eq, Time.Clock.stamp_ticks]

theorem check_write_iff_chronological [Pattern.Engine] (hread : ReadsPolicy) (o : Options)
    (message : MergeMessage) (c : Time.Clock) :
    check (write o message c).1 = .ok () ↔ Chronological (times (write o message c).1) :=
  check_iff_chronological (alike_write _ o _ message _ _) (check_epochFlow hread)

/-- The flow takes 24 times from the clock. It is accepted exactly if the last of them lies in the
year 9999 at most, whatever was taken from the clock before, by every engine that reads its
patterns. -/
theorem check_write_iff [Pattern.Engine] (hread : ReadsPolicy) (o : Options)
    (message : MergeMessage) {text : String} {c : Time.Clock} (h : Time.Clock.parse text = .ok c)
    (n : Nat) :
    times (write o message (Time.Clock.nextMany n c).2).1 =
        (List.range 24).map (fun k => c.stamp (n + k)) ∧
      (check (write o message (Time.Clock.nextMany n c).2).1 = .ok () ↔
        (c.start.addSeconds (n + 23)).localDate.year ≤ 9999) := by
  have htimes := times_write_nextMany o message h n
  refine ⟨htimes, ?_⟩
  rw [check_write_iff_chronological hread, htimes]
  exact Time.Clock.chronological_iff h n 23

/-- A clock that can still hand out 24 times in the year 9999. -/
def lastClock : Time.Clock := ⟨⟨253402300776, 0, 0⟩, 0⟩

theorem parse_lastClock : Time.Clock.parse "9999-12-31T23:59:36Z" = .ok lastClock :=
  Except.toOption_eq_some.1 (by decide +kernel)

theorem year_lastClock : (lastClock.start.addSeconds (0 + 23)).localDate.year ≤ 9999 := by
  decide

section

attribute [local instance] Pattern.Engine.builtIn

/-- The last clock serves one flow, but not after a tick. -/
theorem check_write_last : ReadsPolicy ∧
    Time.Clock.parse "9999-12-31T23:59:36Z" = .ok lastClock ∧
      check (write (.ofConvention .scipy) .usual (Time.Clock.nextMany 0 lastClock).2).1 = .ok () ∧
      check (write (.ofConvention .scipy) .usual (Time.Clock.nextMany 1 lastClock).2).1 ≠ .ok () := by
  refine ⟨readsPolicy_builtIn, parse_lastClock, ?_, ?_⟩
  · exact (check_write_iff readsPolicy_builtIn _ _ parse_lastClock 0).2.2 year_lastClock
  · exact (check_write_iff readsPolicy_builtIn _ _ parse_lastClock 1).2.not.2 (by decide)

end

end Scenario.GitFlow

end ReleaseHistory
