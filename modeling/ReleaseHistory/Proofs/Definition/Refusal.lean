import ReleaseHistory.Proofs.Definition.Progress

/-!
# Which step refuses a definition

A check that does not accept a definition stops at one step. What comes before it is accepted by
itself, and no beginning that goes as far as this step is. The fault bears the number of the step,
except where a release comes to a pattern that does not compile: that is a fault of the settings.
-/

namespace ReleaseHistory

namespace ReleasePolicy

variable [Pattern.Engine]

/-- A pattern does not compile, and its turn comes: the patterns before it compile and do not
match. -/
def Unreadable (branch : String) (groups : List (String × BranchPolicy)) (pattern : String) : Prop :=
  ∃ before group after, groups = before ++ group :: after ∧
    (∀ g ∈ before, g.2.matches? branch = some false) ∧ group.2.pattern = pattern ∧
      Pattern.Engine.compile? pattern = none

theorem unreadable_of_firstMatch {branch pattern : String} {groups : List (String × BranchPolicy)}
    (h : firstMatch branch groups = .error pattern) : Unreadable branch groups pattern := by
  induction groups with
  | nil => cases h
  | cons g rest ih =>
    rw [firstMatch] at h
    cases hmatches : g.2.matches? branch with
    | none =>
      rw [hmatches] at h
      cases h
      exact ⟨[], g, rest, rfl, by simp, rfl, Option.map_eq_none_iff.1 hmatches⟩
    | some found =>
      rw [hmatches] at h
      cases found with
      | true => cases h
      | false =>
        obtain ⟨before, group, after, rfl, hbefore, hgroup⟩ := ih h
        exact ⟨g :: before, group, after, rfl, List.forall_mem_cons.2 ⟨hmatches, hbefore⟩, hgroup⟩

end ReleasePolicy

namespace Definition

/-! ### Faults of patterns -/

/-- A result that is refused because of a pattern only if the pattern is one of some. -/
def Blames {α : Type} (P : String → Prop) (x : StepResult α) : Prop :=
  ∀ pattern, x = .error (.pattern pattern) → P pattern

section Results

variable {α β : Type} {P : String → Prop}

theorem blames_ok (a : α) : Blames P (.ok a) := fun _ h => nomatch h

theorem blames_sequence (cause : SequenceFault) :
    Blames P (.error (.sequence cause) : StepResult α) := fun _ h => nomatch h

theorem blames_require (b : Bool) (cause : SequenceFault) : Blames P (require b cause) := by
  cases b
  · exact blames_sequence cause
  · exact blames_ok ()

theorem Blames.bind {x : StepResult α} {f : α → StepResult β} (hx : Blames P x)
    (hf : ∀ a, x = .ok a → Blames P (f a)) : Blames P (x >>= f) := by
  cases x with
  | ok a => exact hf a rfl
  | error fault =>
    intro pattern h
    cases h
    exact hx pattern rfl

theorem Blames.map {x : StepResult α} (hx : Blames P x) (f : α → β) : Blames P (f <$> x) := by
  cases x with
  | ok a => exact blames_ok _
  | error fault =>
    intro pattern h
    cases h
    exact hx pattern rfl

theorem blames_version (r : Except Version.Fault α) :
    Blames P (r.mapError fun cause => StepFault.sequence (.version cause)) := by
  cases r with
  | ok a => exact blames_ok a
  | error cause => exact blames_sequence _

end Results

namespace Progress

variable {p : Progress} {P : String → Prop}

theorem blames_requireBranch (name : String) : Blames P (p.requireBranch name) :=
  blames_require _ _

theorem blames_addEntry (time : String) : Blames P (p.addEntry time) := by
  unfold addEntry
  split
  · exact blames_sequence _
  · split
    · split
      · exact blames_ok _
      · exact blames_sequence _
    · exact blames_ok _

theorem blames_addEntries (cs : List Commit) : Blames P (p.addEntries cs) := by
  induction cs generalizing p with
  | nil => exact blames_ok p
  | cons c cs ih => exact (blames_addEntry c.datetime).bind fun _ _ => ih

theorem blames_configure (c : Configuration) : Blames P (p.configure c) :=
  (blames_require _ _).bind fun _ _ => (blames_require _ _).map _

theorem blames_checkout (c : Checkout) : Blames P (p.checkout c) := by
  cases c with
  | existing branch => exact (blames_requireBranch branch).map _
  | create name start =>
    exact (blames_require _ _).bind fun _ _ => (blames_requireBranch start).map _

theorem blames_merge (m : Merge) : Blames P (p.merge m) := by
  refine (blames_requireBranch _).bind fun _ _ => (blames_requireBranch _).bind fun _ _ => ?_
  refine (blames_require _ _).bind fun _ _ => ?_
  split
  · exact blames_sequence _
  · exact blames_sequence _
  · exact blames_addEntry _
  · exact blames_ok _

theorem blames_commits (cs : List Commit) : Blames P (p.commits cs) :=
  (blames_addEntries cs).map _

theorem blames_checkBefore (version : String) (before : List Action) :
    Blames P (checkBefore version before) := by
  induction before with
  | nil => exact blames_ok ()
  | cons a rest ih =>
    cases a with
    | changelogs u =>
      rw [checkBefore]
      split
      · exact ih
      · exact blames_sequence _
    | _ => exact blames_sequence _

theorem blames_addRelease (v : Version.Release) (channel : Option String) :
    Blames P (p.addRelease v channel) := by
  unfold addRelease
  split
  · exact (blames_require _ _).map _
  · exact blames_ok _

variable [Pattern.Engine]

theorem blames_checkPolicy (v : Version.Release) (channel : Option String)
    (hP : ∀ policy, p.policy = some policy → ∀ pattern,
      ReleasePolicy.Unreadable p.current policy.groups pattern → P pattern) :
    Blames P (p.checkPolicy v channel) := by
  unfold checkPolicy
  split
  · exact blames_ok ()
  · rename_i policy hpolicy
    refine (blames_require _ _).bind fun _ _ => ?_
    cases hgroup : policy.groupFor p.current with
    | error text =>
      intro pattern h
      cases h
      exact hP policy hpolicy text (ReleasePolicy.unreadable_of_firstMatch hgroup)
    | ok found =>
      cases found with
      | none => exact blames_sequence _
      | some group => exact blames_require _ _

theorem blames_release (version time : String) (before : List Action)
    (hP : ∀ policy, p.policy = some policy → ∀ pattern,
      ReleasePolicy.Unreadable p.current policy.groups pattern → P pattern) :
    Blames P (p.release version time before) := by
  refine (blames_requireBranch _).bind fun _ _ => (blames_addEntry time).bind fun q hq => ?_
  obtain ⟨t, -, -, rfl⟩ := addEntry_eq_ok.1 hq
  refine (blames_version _).bind fun v _ => (blames_version _).bind fun channel _ => ?_
  refine (blames_checkBefore version before).bind fun _ _ => ?_
  exact (blames_checkPolicy v channel hP).bind fun _ _ => blames_addRelease v channel

/-- A step that is refused because of a pattern is a release that comes to it. -/
theorem blames_step (a : Action) :
    Blames (fun pattern => (∃ version time before, a = .release version time before) ∧
      ∃ policy, p.policy = some policy ∧
        ReleasePolicy.Unreadable p.current policy.groups pattern) (p.step a) := by
  cases a with
  | configure c => exact blames_configure c
  | checkout c => exact blames_checkout c
  | merge m => exact blames_merge m
  | commits cs => exact blames_commits cs
  | changelogs u => exact blames_ok p
  | release version time before =>
    refine blames_release version time before fun policy hpolicy pattern hpattern => ?_
    exact ⟨⟨version, time, before, rfl⟩, policy, hpolicy, hpattern⟩

end Progress

/-! ### The first step that is refused -/

section Checks

variable [Pattern.Engine]

/-- A check is refused by the first step that is: it has come to what it found there. -/
theorem checkFrom_eq_error {p : Progress} {index : Nat} {d : Definition} {fault : Fault} :
    checkFrom p index d = .error fault ↔ ∃ before a after q cause, d = before ++ a :: after ∧
      checkFrom p index before = .ok q ∧ q.step a = .error cause ∧
        fault = cause.toFault (index + before.length) := by
  induction d generalizing p index with
  | nil =>
    constructor
    · intro h
      cases h
    · rintro ⟨before, a, after, -, -, hnil, -⟩
      simp at hnil
  | cons b d ih =>
    rw [checkFrom]
    cases hstep : p.step b with
    | error cause =>
      constructor
      · intro h
        cases h
        exact ⟨[], b, d, p, cause, rfl, rfl, hstep, rfl⟩
      · rintro ⟨before, a, after, q, cause', hsplit, hbefore, ha, rfl⟩
        cases before with
        | nil =>
          cases hsplit
          cases hbefore
          rw [hstep] at ha
          cases ha
          rfl
        | cons c before =>
          cases hsplit
          rw [checkFrom, hstep] at hbefore
          cases hbefore
    | ok q =>
      dsimp only
      rw [ih]
      constructor
      · rintro ⟨before, a, after, q', cause, rfl, hbefore, ha, rfl⟩
        refine ⟨b :: before, a, after, q', cause, rfl, ?_, ha, ?_⟩
        · rw [checkFrom, hstep]
          exact hbefore
        · rw [List.length_cons, Nat.add_assoc, Nat.add_comm 1]
      · rintro ⟨before, a, after, q', cause, hsplit, hbefore, ha, rfl⟩
        cases before with
        | nil =>
          cases hsplit
          cases hbefore
          rw [hstep] at ha
          cases ha
        | cons c before =>
          cases hsplit
          rw [checkFrom, hstep] at hbefore
          refine ⟨before, a, after, q', cause, rfl, hbefore, ha, ?_⟩
          rw [List.length_cons, Nat.add_assoc, Nat.add_comm 1]

theorem check_eq_error {d : Definition} {fault : Fault} :
    d.check = .error fault ↔ checkFrom .start 0 d = .error fault := by
  unfold check
  cases checkFrom .start 0 d <;> simp [Except.map]

/-- A definition that is not accepted is refused by one of its actions: those before it are accepted
by themselves, and with it they are refused. The fault is one of the sequence, whose message names the
number of the action, unless the action is a release whose branch comes to a pattern in the settings
that does not compile. -/
theorem check_eq_ok_or_refused (d : Definition) : d.check = .ok () ∨
    ∃ (index : Nat) (a : Action) (fault : Fault), d[index]? = some a ∧ d.check = .error fault ∧
      check (d.take index) = .ok () ∧ check (d.take (index + 1)) = .error fault ∧
      ((∃ cause, fault = .sequence index cause ∧ fault.message? =
          some ("Invalid action sequence: action #" ++ toString index ++ ": " ++ cause.message)) ∨
        ∃ pattern version time before c, fault = .configuration (.branchPattern pattern) ∧
          a = .release version time before ∧ Action.configure c ∈ d.take index ∧
          ReleasePolicy.Unreadable (currentBranch (d.take index)) c.release.groups pattern) := by
  cases hcheck : d.check with
  | ok _ => exact .inl rfl
  | error fault =>
    right
    obtain ⟨before, a, after, q, cause, hsplit, hbefore, hstep, hfault⟩ :=
      checkFrom_eq_error.1 (check_eq_error.1 hcheck)
    rw [Nat.zero_add] at hfault
    have hindex : d[before.length]? = some a := by simp [hsplit]
    have htake : d.take before.length = before := by simp [hsplit]
    have hnext : d.take (before.length + 1) = before ++ [a] := by
      rw [hsplit, List.take_length_add_append]
      rfl
    have hrefused : check (before ++ [a]) = .error fault := by
      rw [check_eq_error, checkFrom_eq_error]
      exact ⟨before, a, [], q, cause, rfl, hbefore, hstep, by rw [Nat.zero_add, hfault]⟩
    refine ⟨before.length, a, fault, hindex, rfl, ?_, ?_, ?_⟩
    · rw [htake, check_eq_ok]
      exact ⟨q, hbefore⟩
    · rw [hnext, hrefused]
    · rw [htake]
      cases cause with
      | sequence cause => exact .inl ⟨cause, hfault, by rw [hfault]; rfl⟩
      | pattern pattern =>
        right
        obtain ⟨⟨version, time, first, rfl⟩, policy, hpolicy, hunreadable⟩ :=
          Progress.blames_step a pattern hstep
        have htracks := (tracks_of_checkFrom hbefore).2
        obtain ⟨c, hc, rfl⟩ := (htracks.policy policy).1 hpolicy
        rw [htracks.current] at hunreadable
        exact ⟨pattern, version, time, first, c, hfault, rfl, hc, hunreadable⟩

end Checks

/-- A release from a branch whose group has a pattern with an open parenthesis. -/
def unclosed : Definition :=
  [.configure ⟨.angular, "github", "example.com", none, false,
      .ofList false [("main", ⟨"(main", false, none⟩)], []⟩,
    .commits [⟨"start", "2024-01-01T00:00:00+00:00", false⟩],
    .release "1.0.0" "2024-01-01T00:00:01+00:00" []]

section

attribute [local instance] Pattern.Engine.builtIn

/-- The definition is refused, and no number is in the fault. -/
theorem check_unclosed : unclosed.check = .error (.configuration (.branchPattern "(main")) ∧
    ¬(unclosed.check = .ok () ∨ ∃ index cause, unclosed.check = .error (.sequence index cause)) := by
  have hcheck : unclosed.check = .error (.configuration (.branchPattern "(main")) := by
    decide +kernel
  rw [hcheck]
  simp

end

end Definition

end ReleaseHistory
