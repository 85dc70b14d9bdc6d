import Mathlib.Data.List.Chain
import ReleaseHistory.Proofs.Definition.Step
import ReleaseHistory.Proofs.Version.Precedence

/-!
# Which definitions are valid

Validity is said of a definition as a whole: what every action finds before it, and how any two
entries and any two releases of a channel stand to each other. The check sees less, since it keeps
only the last entry and the last release of each channel. That it accepts exactly the valid
definitions rests on what it has seen after each action, and on instants and precedence being
transitive.
-/

namespace ReleaseHistory.Definition

/-! ### What a definition says about itself -/

def configurations (d : Definition) : List Configuration :=
  d.filterMap fun
    | .configure c => some c
    | _ => none

def checkouts (d : Definition) : List Checkout :=
  d.filterMap fun
    | .checkout c => some c
    | _ => none

def currentBranch (d : Definition) : String :=
  ((d.checkouts.map Checkout.target).getLast?).getD mainBranch

/-- Something holds of every action and those before it. -/
def Each (P : Definition → Action → Prop) (d : Definition) : Prop :=
  ∀ before a after, d = before ++ a :: after → P before a

/-- A branch is there once it has been created, and the main branch once a commit was made on it. -/
def HasBranch (d : Definition) (branch : String) : Prop :=
  (∃ start, Action.checkout (.create branch start) ∈ d) ∨
    branch = mainBranch ∧ ∃ (before after : Definition) (c : Commit) (cs : List Commit),
      d = before ++ .commits (c :: cs) :: after ∧ before.currentBranch = mainBranch

/-- The times of the commits, merge commits and releases of an action. -/
def actionTimes : Action → List String
  | .commits cs => cs.map (·.datetime)
  | .merge m => (m.commit.map (·.datetime)).toList
  | .release _ time _ => [time]
  | _ => []

/-- The times of all entries, in order. -/
def times (d : Definition) : List String := d.flatMap actionTimes

/-- The releases of one channel, in order, as far as their versions can be read. -/
def releasedIn (d : Definition) (channel : Option String) : List Version.Release :=
  d.versions.filterMap fun version =>
    match Version.Release.parse version with
    | .ok v => if v.channel.toOption = some channel then some v else none
    | .error _ => none

/-- Times read as instants, of any two of which the first is the earlier one. -/
def Stamped (times : List String) (stamps : List Time.Timestamp) : Prop :=
  times.map Time.Timestamp.parse = stamps.map .ok ∧ stamps.Pairwise Time.Timestamp.Before

/-- Times can be read, and of any two the first is the earlier instant. -/
def Chronological (times : List String) : Prop := ∃ stamps, Stamped times stamps

/-- What an action needs of the branches before it. -/
def BranchesFit (before : Definition) : Action → Prop
  | .checkout (.existing branch) => before.HasBranch branch
  | .checkout (.create name start) => ¬before.HasBranch name ∧ before.HasBranch start
  | .merge m => before.HasBranch m.branch ∧ before.HasBranch before.currentBranch ∧
      m.branch ≠ before.currentBranch
  | .release .. => before.HasBranch before.currentBranch
  | _ => True

/-- A release has a version with a channel and writes only its own changelogs. Where there are
settings, its version may be zero only if they say so, and its channel is that of its branch. -/
def ReleaseFits [Pattern.Engine] (before : Definition) : Action → Prop
  | .release version _ first =>
    ∃ v channel, Version.Release.parse version = .ok v ∧ v.channel = .ok channel ∧
      (∀ a ∈ first, ∃ u : ChangelogUpdate, a = .changelogs u ∧ u.version = version) ∧
      ∀ c, .configure c ∈ before → (c.release.allowZeroVersion = true ∨ v.core.major ≠ 0) ∧
        ∃ group, ReleasePolicy.FirstMatch before.currentBranch c.release.groups group ∧
          group.2.channel = channel
  | _ => True

/-- A definition is valid. -/
structure Valid [Pattern.Engine] (d : Definition) : Prop where
  configuredOnce : d.configurations.length ≤ 1
  configuredFirst : d.Each fun before a =>
    ∀ c, a = .configure c → ∀ b ∈ before, ∃ u, b = .changelogs u
  branches : d.Each BranchesFit
  mergeCommits : ∀ m, .merge m ∈ d → (m.fastForward = true ↔ m.commit = none)
  chronological : Chronological d.times
  releases : d.Each ReleaseFits
  ascending : ∀ channel, (d.releasedIn channel).Pairwise fun v w => w.precedence v = .gt

/-! ### One more action -/

theorem each_concat {P : Definition → Action → Prop} {d : Definition} {a : Action} :
    Each P (d ++ [a]) ↔ Each P d ∧ P d a := by
  constructor
  · intro h
    refine ⟨fun before b after heq => ?_, h d a [] rfl⟩
    exact h before b (after ++ [a]) (by rw [heq, List.append_assoc, List.cons_append])
  · rintro ⟨hd, ha⟩ before b after heq
    rcases List.eq_nil_or_concat after with rfl | ⟨after, c, rfl⟩
    · obtain ⟨rfl, hab⟩ := List.append_inj' heq rfl
      obtain ⟨rfl, -⟩ := List.cons.inj hab
      exact ha
    · rw [List.concat_eq_append, ← List.cons_append, ← List.append_assoc] at heq
      exact hd before b after (List.append_inj' heq rfl).1

theorem each_nil {P : Definition → Action → Prop} : Each P [] := by
  intro before a after h
  simp at h

theorem each_append {P : Definition → Action → Prop} {d e : Definition} :
    Each P (d ++ e) ↔ Each P d ∧ Each (fun before => P (d ++ before)) e := by
  induction e using List.reverseRecOn with
  | nil => simp [each_nil]
  | append_singleton e a ih => rw [← List.append_assoc, each_concat, each_concat, ih, and_assoc]

theorem each_cons {P : Definition → Action → Prop} {a : Action} {d : Definition} :
    Each P (a :: d) ↔ P [] a ∧ Each (fun before => P (a :: before)) d := by
  have hone : Each P [a] ↔ P [] a := by
    rw [← List.nil_append [a], each_concat, and_iff_right each_nil]
  rw [← List.singleton_append, each_append, hone]
  rfl

theorem configurations_concat {d : Definition} {a : Action} :
    configurations (d ++ [a]) = d.configurations ++ configurations [a] :=
  List.filterMap_append

theorem mem_configurations {d : Definition} {c : Configuration} :
    c ∈ d.configurations ↔ .configure c ∈ d := by
  simp only [configurations, List.mem_filterMap]
  constructor
  · rintro ⟨a, ha, h⟩
    cases a <;> simp at h
    exact h ▸ ha
  · intro h
    exact ⟨_, h, rfl⟩

theorem times_cons {a : Action} {d : Definition} : times (a :: d) = actionTimes a ++ d.times :=
  List.flatMap_cons

theorem times_concat {d : Definition} {a : Action} :
    times (d ++ [a]) = d.times ++ actionTimes a := by
  simp [times]

theorem versions_concat {d : Definition} {a : Action} :
    versions (d ++ [a]) = d.versions ++ versions [a] :=
  List.filterMap_append

theorem releasedIn_concat {d : Definition} {a : Action} {channel : Option String} :
    releasedIn (d ++ [a]) channel = d.releasedIn channel ++ releasedIn [a] channel := by
  simp [releasedIn, versions]

theorem currentBranch_concat {d : Definition} {a : Action} :
    currentBranch (d ++ [a]) = match a with
      | .checkout c => c.target
      | _ => d.currentBranch := by
  cases a <;> simp [currentBranch, checkouts]

/-- A commit on the main branch, said as what does not hold of each action. -/
theorem exists_commit_iff {d : Definition} :
    (∃ (before after : Definition) (c : Commit) (cs : List Commit),
        d = before ++ .commits (c :: cs) :: after ∧ before.currentBranch = mainBranch) ↔
      ¬d.Each fun before a => ∀ c cs, a = .commits (c :: cs) →
        before.currentBranch ≠ mainBranch := by
  simp only [Each, not_forall, not_not]
  constructor
  · rintro ⟨before, after, c, cs, hd, hb⟩
    exact ⟨before, _, after, hd, c, cs, rfl, hb⟩
  · rintro ⟨before, _, after, hd, c, cs, rfl, hb⟩
    exact ⟨before, after, c, cs, hd, hb⟩

theorem hasBranch_concat {d : Definition} {a : Action} {branch : String} :
    HasBranch (d ++ [a]) branch ↔ d.HasBranch branch ∨
      (∃ start, a = .checkout (.create branch start)) ∨
      branch = mainBranch ∧ d.currentBranch = mainBranch ∧ ∃ c cs, a = .commits (c :: cs) := by
  have hcommit : (¬∀ c cs, a = .commits (c :: cs) → d.currentBranch ≠ mainBranch) ↔
      d.currentBranch = mainBranch ∧ ∃ c cs, a = .commits (c :: cs) := by
    simp only [not_forall, not_not]
    constructor
    · rintro ⟨c, cs, ha, hb⟩
      exact ⟨hb, c, cs, ha⟩
    · rintro ⟨hb, c, cs, ha⟩
      exact ⟨c, cs, ha, hb⟩
  simp only [HasBranch, exists_commit_iff, each_concat, List.mem_append, List.mem_singleton,
    not_and_or, hcommit, exists_or, @eq_comm _ _ a]
  grind

/-! ### Lists in ascending order -/

/-- In a list in ascending order, it is enough that the last element is below a new one. -/
theorem pairwise_concat {α : Type} {R : α → α → Prop} [IsTrans α R] {xs : List α} {y : α} :
    (xs ++ [y]).Pairwise R ↔ xs.Pairwise R ∧ ∀ x ∈ xs.getLast?, R x y := by
  simp only [← List.isChain_iff_pairwise, List.isChain_append, List.isChain_singleton,
    List.head?_cons, Option.mem_def, Option.some.injEq, forall_eq', true_and]

/-- Later entries of a channel have higher precedence. -/
instance : IsTrans Version.Release fun v w => w.precedence v = .gt where
  trans _ _ _ hvw hwx := Std.TransCmp.gt_trans hwx hvw

/-! ### Times in order -/

theorem Stamped.unique {times : List String} {ss ts : List Time.Timestamp}
    (hs : Stamped times ss) (ht : Stamped times ts) : ss = ts :=
  List.map_injective_iff.2 (fun _ _ h => Except.ok.inj h) (hs.1.symm.trans ht.1)

theorem Stamped.left {xs ys : List String} {stamps : List Time.Timestamp}
    (h : Stamped (xs ++ ys) stamps) : ∃ ss ts, stamps = ss ++ ts ∧ Stamped xs ss := by
  obtain ⟨hmap, hstamps⟩ := h
  rw [List.map_append] at hmap
  obtain ⟨ss, ts, rfl, hss, -⟩ := List.map_eq_append_iff.1 hmap.symm
  exact ⟨ss, ts, rfl, hss.symm, (List.pairwise_append.1 hstamps).1⟩

theorem Chronological.left {xs ys : List String} (h : Chronological (xs ++ ys)) :
    Chronological xs := by
  obtain ⟨stamps, hstamps⟩ := h
  obtain ⟨ss, -, -, hss⟩ := hstamps.left
  exact ⟨ss, hss⟩

/-- With one more time, there is one more instant, which is later than the last one. -/
theorem stamped_concat {times : List String} {stamps all : List Time.Timestamp} {time : String}
    (h : Stamped times stamps) :
    Stamped (times ++ [time]) all ↔ ∃ t, Time.Timestamp.parse time = .ok t ∧
      (∀ last ∈ stamps.getLast?, last.Before t) ∧ all = stamps ++ [t] := by
  constructor
  · intro hall
    obtain ⟨ss, ts, rfl, hss⟩ := hall.left
    obtain rfl := hss.unique h
    have hmap := hall.1
    rw [List.map_append, List.map_append, h.1, List.append_right_inj] at hmap
    obtain ⟨t, rfl, ht⟩ := List.map_eq_singleton_iff.1 hmap.symm
    exact ⟨t, ht.symm, (pairwise_concat.1 hall.2).2, rfl⟩
  · rintro ⟨t, ht, hlast, rfl⟩
    refine ⟨?_, pairwise_concat.2 ⟨h.2, hlast⟩⟩
    rw [List.map_append, List.map_append, h.1, List.map_singleton, List.map_singleton, ht]

end ReleaseHistory.Definition
