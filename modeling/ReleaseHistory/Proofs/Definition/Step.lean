import ReleaseHistory.Definition.Check
import ReleaseHistory.Proofs.Operation
import ReleaseHistory.Proofs.Time.Instant

/-!
# What one step of a check demands

For each operation on what a check has seen there is one lemma that says when it succeeds and what
it leaves behind. Everything else about checks follows from these, without opening an operation.
-/

namespace ReleaseHistory

namespace ReleasePolicy

variable [Pattern.Engine]

/-- The group that a branch belongs to is the first one that matches; the patterns of the groups
before it compile and do not match. -/
def FirstMatch (branch : String) (groups : List (String × BranchPolicy))
    (group : String × BranchPolicy) : Prop :=
  ∃ before after, groups = before ++ group :: after ∧
    (∀ g ∈ before, g.2.matches? branch = some false) ∧ group.2.matches? branch = some true

theorem firstMatch_cons {branch : String} {g group : String × BranchPolicy}
    {rest : List (String × BranchPolicy)} :
    FirstMatch branch (g :: rest) group ↔ g.2.matches? branch = some true ∧ group = g ∨
      g.2.matches? branch = some false ∧ FirstMatch branch rest group := by
  constructor
  · rintro ⟨before, after, heq, hbefore, hgroup⟩
    cases before with
    | nil =>
      obtain ⟨rfl, -⟩ := List.cons.inj heq
      exact Or.inl ⟨hgroup, rfl⟩
    | cons b bs =>
      obtain ⟨rfl, rfl⟩ := List.cons.inj heq
      obtain ⟨hfirst, hrest⟩ := List.forall_mem_cons.1 hbefore
      exact Or.inr ⟨hfirst, bs, after, rfl, hrest, hgroup⟩
  · rintro (⟨hg, rfl⟩ | ⟨hg, before, after, rfl, hbefore, hgroup⟩)
    · exact ⟨[], rest, rfl, by simp, hg⟩
    · exact ⟨g :: before, after, rfl, List.forall_mem_cons.2 ⟨hg, hbefore⟩, hgroup⟩

theorem firstMatch_eq_ok_some {branch : String} {groups : List (String × BranchPolicy)}
    {group : String × BranchPolicy} :
    firstMatch branch groups = .ok (some group) ↔ FirstMatch branch groups group := by
  induction groups with
  | nil => simp [firstMatch, FirstMatch]
  | cons g rest ih =>
    obtain ⟨name, p⟩ := g
    rw [firstMatch, firstMatch_cons]
    cases hm : p.matches? branch with
    | none => simp
    | some matched =>
      cases matched with
      | true => simp [eq_comm]
      | false => simp [ih]

end ReleasePolicy

namespace Definition

theorem require_eq_ok {b : Bool} {cause : SequenceFault} {u : Unit} :
    require b cause = .ok u ↔ b = true := by
  cases b <;> simp [require, refuse]

namespace Progress

variable {p q : Progress}

theorem requireBranch_eq_ok {name : String} {u : Unit} :
    p.requireBranch name = .ok u ↔ name ∈ p.branches := by
  simp only [requireBranch, require_eq_ok, List.contains_iff_mem]

@[simp] theorem mem_branches_addBranch {name b : String} :
    b ∈ (p.addBranch name).branches ↔ b ∈ p.branches ∨ b = name := by
  unfold addBranch
  split
  · rename_i h
    rw [List.contains_iff_mem] at h
    constructor
    · exact Or.inl
    · rintro (hb | rfl)
      · exact hb
      · exact h
  · simp only [List.mem_cons]
    exact or_comm

@[simp] theorem addBranch_policy {name : String} : (p.addBranch name).policy = p.policy := by
  unfold addBranch
  split <;> rfl

@[simp] theorem addBranch_hasHistory {name : String} :
    (p.addBranch name).hasHistory = p.hasHistory := by
  unfold addBranch
  split <;> rfl

@[simp] theorem addBranch_current {name : String} : (p.addBranch name).current = p.current := by
  unfold addBranch
  split <;> rfl

@[simp] theorem addBranch_lastEntry {name : String} :
    (p.addBranch name).lastEntry = p.lastEntry := by
  unfold addBranch
  split <;> rfl

@[simp] theorem addBranch_released {name : String} :
    (p.addBranch name).released = p.released := by
  unfold addBranch
  split <;> rfl

/-! ### Entries -/

/-- An entry is added if its time can be read and is later than that of the last one. -/
theorem addEntry_eq_ok {time : String} :
    p.addEntry time = .ok q ↔
      ∃ t, Time.Timestamp.parse time = .ok t ∧ (∀ last ∈ p.lastEntry, last.Before t) ∧
        q = { p with lastEntry := some t } := by
  unfold addEntry
  cases Time.Timestamp.parse time with
  | error cause => simp [refuse]
  | ok t =>
    cases p.lastEntry with
    | none => simp [eq_comm]
    | some last =>
      by_cases h : t.order last = .gt
      · have hb := Time.Timestamp.order_eq_gt_iff.1 h
        simp [h, hb, eq_comm]
      · have hb : ¬last.Before t := fun hb => h (Time.Timestamp.order_eq_gt_iff.2 hb)
        simp [h, hb, refuse]

/-! ### Steps -/

theorem configure_eq_ok {c : Configuration} :
    p.configure c = .ok q ↔
      p.policy = none ∧ p.hasHistory = false ∧ q = { p with policy := some c.release } := by
  simp [configure, Except.bind_eq_ok, require_eq_ok, Except.map_eq_ok]

theorem checkout_existing_eq_ok {branch : String} :
    p.checkout (.existing branch) = .ok q ↔
      branch ∈ p.branches ∧ q = { p with current := branch } := by
  simp [checkout, requireBranch_eq_ok, Except.map_eq_ok]

theorem checkout_create_eq_ok {name start : String} :
    p.checkout (.create name start) = .ok q ↔
      name ∉ p.branches ∧ start ∈ p.branches ∧ q = { p.addBranch name with current := name } := by
  simp [checkout, Except.bind_eq_ok, require_eq_ok, requireBranch_eq_ok, Except.map_eq_ok]

/-- A merge is accepted between two different branches; it then counts as an entry if it has a
commit, and only a fast-forward may have none. -/
theorem merge_eq_ok {m : Merge} :
    p.merge m = .ok q ↔
      m.branch ∈ p.branches ∧ p.current ∈ p.branches ∧ m.branch ≠ p.current ∧
        (m.fastForward = true ∧ m.commit = none ∧ q = p ∨
          ∃ c, m.fastForward = false ∧ m.commit = some c ∧ p.addEntry c.datetime = .ok q) := by
  obtain ⟨branch, fastForward, commit⟩ := m
  simp only [merge, Except.bind_eq_ok, requireBranch_eq_ok, require_eq_ok, exists_and_left,
    exists_const, decide_eq_true_eq, ne_eq]
  cases fastForward <;> cases commit <;> simp [refuse, Except.pure_eq_ok]

theorem commits_eq_ok {cs : List Commit} :
    p.commits cs = .ok q ↔
      ∃ r, p.addEntries cs = .ok r ∧ q = if cs = [] then r else r.addBranch r.current := by
  simp [commits, Except.map_eq_ok]

theorem checkBefore_eq_ok {version : String} {before : List Action} {u : Unit} :
    checkBefore version before = .ok u ↔
      ∀ a ∈ before, ∃ w : ChangelogUpdate, a = .changelogs w ∧ w.version = version := by
  induction before with
  | nil => simp [checkBefore]
  | cons a rest ih =>
    cases a with
    | changelogs w =>
      by_cases h : w.version = version
      · simp [checkBefore, h, ih]
      · simp [checkBefore, h, refuse]
    | _ => simp [checkBefore, refuse]

theorem addRelease_eq_ok {v : Version.Release} {channel : Option String} :
    p.addRelease v channel = .ok q ↔
      (∀ previous ∈ p.released.lookup channel, v.precedence previous = .gt) ∧
        q = { p with released := (channel, v) :: p.released } := by
  unfold addRelease
  cases p.released.lookup channel with
  | none =>
    simp only [Option.mem_def, reduceCtorEq, false_implies, implies_true, true_and]
    constructor
    · intro h
      exact (Except.ok.inj h).symm
    · rintro rfl
      rfl
  | some previous => simp [require_eq_ok, Except.map_eq_ok]

variable [Pattern.Engine]

/-- A release fits a policy if the version may be zero or is not, and if its channel is that of the
group that the branch belongs to. -/
theorem checkPolicy_eq_ok {v : Version.Release} {channel : Option String} {u : Unit} :
    p.checkPolicy v channel = .ok u ↔
      ∀ policy ∈ p.policy, (policy.allowZeroVersion = true ∨ v.core.major ≠ 0) ∧
        ∃ group, ReleasePolicy.FirstMatch p.current policy.groups group ∧
          group.2.channel = channel := by
  unfold checkPolicy
  cases p.policy with
  | none => simp
  | some policy =>
    simp only [Except.bind_eq_ok, require_eq_ok, exists_and_left, exists_const, Option.mem_def,
      Option.some.injEq, forall_eq', Bool.or_eq_true, decide_eq_true_eq, ReleasePolicy.groupFor,
      ← ReleasePolicy.firstMatch_eq_ok_some]
    cases ReleasePolicy.firstMatch p.current policy.groups with
    | error text => simp
    | ok found =>
      cases found with
      | none => simp [refuse]
      | some group => simp [require_eq_ok]

/-- A release is accepted on a branch that is there, at a later time, with a version that can be
read, after nothing but its own changelogs, under the policy, and after its channel's last one. -/
theorem release_eq_ok {version time : String} {before : List Action} :
    p.release version time before = .ok q ↔
      p.current ∈ p.branches ∧ ∃ r, p.addEntry time = .ok r ∧
        ∃ v channel, Version.Release.parse version = .ok v ∧ v.channel = .ok channel ∧
          (∀ a ∈ before, ∃ w : ChangelogUpdate, a = .changelogs w ∧ w.version = version) ∧
          r.checkPolicy v channel = .ok () ∧ r.addRelease v channel = .ok q := by
  simp only [release, Except.bind_eq_ok, requireBranch_eq_ok, Except.mapError_eq_ok,
    checkBefore_eq_ok, exists_and_left, exists_const]
  constructor
  · rintro ⟨hb, r, he, v, hv, channel, hch, hbef, ⟨⟩, hpol, hadd⟩
    exact ⟨hb, r, he, v, hv, channel, hch, hbef, hpol, hadd⟩
  · rintro ⟨hb, r, he, v, hv, channel, hch, hbef, hpol, hadd⟩
    exact ⟨hb, r, he, v, hv, channel, hch, hbef, (), hpol, hadd⟩

end Progress

end Definition

end ReleaseHistory
