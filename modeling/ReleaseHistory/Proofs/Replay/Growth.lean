import ReleaseHistory.Proofs.Replay.Lockstep
import ReleaseHistory.Proofs.WorkTree.Growth
import ReleaseHistory.Proofs.WorkTree.Trace

/-!
# Histories in a replay

In the replay of a checked definition a branch is only created where there was none, so no call of a
recorder takes anything away from a history.
-/

namespace ReleaseHistory

open Operation WorkTree Traced

namespace Recorder

/-- No call of a run creates a branch that is there. -/
def SparesAll (r : Recorder) : List Call → Prop
  | [] => True
  | call :: calls => r.Spares call ∧ SparesAll (call.after r) calls

variable {r : Recorder} {calls more : List Call}

theorem sparesAll_append :
    r.SparesAll (calls ++ more) ↔ r.SparesAll calls ∧ SparesAll (after r calls) more := by
  induction calls generalizing r with
  | nil =>
    rw [List.nil_append, SparesAll, true_and]
    rfl
  | cons call calls ih =>
    rw [List.cons_append, SparesAll, SparesAll, ih, and_assoc]
    rfl

theorem SparesAll.grows (h : r.SparesAll calls) {i j : Nat} (hij : i ≤ j) :
    Grows (after r (calls.take i)) (after r (calls.take j)) := by
  induction calls generalizing r i j with
  | nil =>
    rw [List.take_nil, List.take_nil]
    exact .refl _
  | cons call calls ih =>
    cases j with
    | zero =>
      obtain rfl := Nat.le_zero.1 hij
      exact .refl _
    | succ j =>
      cases i with
      | zero => exact (grows_after h.1).trans (ih h.2 (Nat.zero_le j))
      | succ i => exact ih h.2 (Nat.le_of_succ_le_succ hij)

end Recorder

namespace Replay

open Recorder (Spares SparesAll)

/-! ### Operations that spare branches -/

/-- No call of an operation creates a branch that is there. -/
def SparesIn {α : Type} (r : Recorder) (x : Operation (Traced Recorder) α) : Prop :=
  r.SparesAll (callsOf x r)

section Sequences

variable {α β : Type} {x : Operation (Traced Recorder) α} {y : Operation Recorder α}
  {f : α → Operation (Traced Recorder) β} {g : α → Operation Recorder β} {r : Recorder} {call : Call}

theorem sparesIn_pure (a : α) : SparesIn r (pure a) := trivial

theorem sparesIn_record (h : r.Spares call) : SparesIn r (record call y) := by
  have hcalls : callsOf (record call y) r = [call] := by
    rw [callsOf, on_record]
    rfl
  rw [SparesIn, hcalls]
  exact ⟨h, trivial⟩

theorem SparesIn.bind (h : SparesIn r x) (hx : Traces x y) (hf : ∀ a, Traces (f a) (g a))
    (hrest : ∀ a t, on y r = (.ok a, t) → SparesIn t (f a)) : SparesIn r (x >>= f) := by
  rcases hy : on y r with ⟨result, t⟩
  cases result with
  | error e =>
    rw [SparesIn, hx.callsOf_bind_of_error hy]
    exact h
  | ok a =>
    rw [SparesIn, hx.callsOf_bind_of_ok hf hy, Recorder.sparesAll_append, hx.after_callsOf, hy]
    exact ⟨h, hrest a t hy⟩

/-- An operation that creates no branches. -/
def Gentle (x : Operation (Traced Recorder) α) : Prop := ∀ r, SparesIn r x

theorem gentle_pure (a : α) : Gentle (pure a) := fun _ => sparesIn_pure a

theorem gentle_record (h : ∀ name start, call ≠ .createBranch name start) :
    Gentle (record call y) :=
  fun _ => sparesIn_record fun name start heq => absurd heq (h name start)

theorem Gentle.bind (h : Gentle x) (hx : Traces x y) (hf : ∀ a, Traces (f a) (g a))
    (hrest : ∀ a, Gentle (f a)) : Gentle (x >>= f) :=
  fun r => (h r).bind hx hf fun a t _ => hrest a t

end Sequences

/-! ### Parts of a replay -/

theorem gentle_readText (path : String) : Gentle (WorkTree.readText path) :=
  gentle_record fun _ _ => nofun

theorem gentle_writeText (path text : String) : Gentle (WorkTree.writeText path text) :=
  gentle_record fun _ _ => nofun

theorem gentle_commit (message time : String) : Gentle (WorkTree.commit message time) :=
  gentle_record fun _ _ => nofun

theorem gentle_configure (c : Configuration) : Gentle (configure c) := by
  have hlift : ∀ {α : Type} (result : Except Fault α), Gentle (configure.liftExcept result) :=
    fun _ _ => trivial
  have htraces : ∀ {α : Type} (result : Except Fault α), Traces
      (configure.liftExcept result : Operation (Traced Recorder) α) (configure.liftExcept result) :=
    fun _ => traces_quiet (fun _ => rfl) fun _ => rfl
  have hwrite := fun path text => traces_writeText (σ := Recorder) path text
  have hlast : ∀ s : Settings, Traces (WorkTree.writeText ignoreFile ignoreText >>= fun _ => pure s)
      (WorkTree.writeText ignoreFile ignoreText >>= fun _ => (pure s : Operation Recorder Settings)) :=
    fun s => (hwrite _ _).bind fun _ => traces_pure s
  refine (hlift _).bind (htraces _) (fun f => (htraces _).bind fun text =>
    (hwrite _ text).bind fun _ => hlast _) fun f => ?_
  refine (hlift _).bind (htraces _) (fun text => (hwrite _ text).bind fun _ => hlast _) fun text => ?_
  refine (gentle_writeText _ text).bind (hwrite _ text) (fun _ => hlast _) fun _ => ?_
  exact (gentle_writeText _ _).bind (hwrite _ _) (fun _ => traces_pure _) fun _ => gentle_pure _

theorem gentle_merge (m : Merge) : Gentle (merge m) := by
  obtain ⟨branch, fastForward, commit⟩ := m
  have hmode : ∀ mode, Gentle (WorkTree.merge branch mode) :=
    fun _ => gentle_record fun _ _ => nofun
  cases fastForward with
  | true => exact hmode .fastForward
  | false =>
    cases commit with
    | some c => exact hmode (.withCommit c)
    | none => exact fun _ => trivial

theorem gentle_commits (cs : List Commit) : Gentle (commits cs) := by
  induction cs with
  | nil => exact gentle_pure ()
  | cons c cs ih =>
    have hread := traces_readText (σ := Recorder) changesFile
    have hadd : Gentle (addChange c.message) :=
      (gentle_readText _).bind hread (fun _ => traces_writeText changesFile _)
        fun _ => gentle_writeText changesFile _
    have hcommit := traces_commit (σ := Recorder) c.message c.datetime
    have hrest := fun _ : String => traces_commits (σ := Recorder) cs
    exact hadd.bind (traces_addChange c.message) (fun _ => hcommit.bind hrest) fun _ =>
      (gentle_commit _ _).bind hcommit hrest fun _ => ih

theorem gentle_changelogs (s : Settings) (version : String) (fs : List ChangelogFile) :
    Gentle (changelogs s version fs) := by
  induction fs with
  | nil => exact gentle_pure ()
  | cons f fs ih =>
    have hrest := fun _ : Unit => traces_changelogs (σ := Recorder) s version fs
    have hwrite := fun text => traces_writeText (σ := Recorder) f.path text
    exact (gentle_readText f.path).bind (traces_readText f.path)
      (fun _ => (hwrite _).bind hrest) fun _ =>
        (gentle_writeText f.path _).bind (hwrite _) hrest fun _ => ih

theorem gentle_publish (s : Settings) (version time : String) :
    Gentle (publish s version time) := by
  have hcommit := traces_commit (σ := Recorder) (releaseMessage version) time
  have htag : ∀ _ : String, Traces
      (WorkTree.tag (s.tagFormat.name version) (s.tagFormat.name version) time :
        Operation (Traced Recorder) Unit)
      (WorkTree.tag (s.tagFormat.name version) (s.tagFormat.name version) time) :=
    fun _ => traces_record fun _ => rfl
  exact (gentle_writeText _ _).bind (traces_writeText _ _) (fun _ => hcommit.bind htag) fun _ =>
    (gentle_commit _ _).bind hcommit htag fun _ => gentle_record fun _ _ => nofun

theorem gentle_actAll_changelogs (s : Settings) (first : List Action)
    (h : ∀ a ∈ first, ∃ u, a = .changelogs u) : Gentle (actAll s first) := by
  induction first generalizing s with
  | nil => exact gentle_pure s
  | cons a rest ih =>
    obtain ⟨⟨u, rfl⟩, hrest⟩ := List.forall_mem_cons.1 h
    have hwriting := traces_changelogs (σ := Recorder) s u.version u.files
    have hact : Gentle (act s (.changelogs u)) :=
      (gentle_changelogs s u.version u.files).bind hwriting (fun _ => traces_pure s)
        fun _ => gentle_pure s
    exact hact.bind (traces_act s _) (fun t => traces_actAll t rest) fun t => ih t hrest

/-! ### Replays -/

variable {d : Definition} {a : Action} {s : Settings} {r : Recorder}

theorem sparesIn_act [Pattern.Engine] (hl : Lockstep d s r) (ha : d.Fits a) :
    SparesIn r (act s a) := by
  have hpure := fun _ : Unit => traces_pure (σ := Recorder) s
  cases a with
  | configure c => exact gentle_configure c r
  | checkout c =>
    have hspares : SparesIn r (checkout c) := by
      cases c with
      | existing branch =>
        have hgentle : Gentle (WorkTree.checkout branch) := gentle_record fun _ _ => nofun
        exact hgentle r
      | create name start =>
        have hnew : r.Spares (.createBranch name start) := by
          rintro _ _ ⟨⟩
          rw [← Option.not_isSome_iff_eq_none, hl.branches]
          exact ha.branches.1
        have hcreate : SparesIn r (WorkTree.createBranch name start) := sparesIn_record hnew
        exact hcreate
    exact hspares.bind (traces_checkout c) hpure fun _ _ _ => sparesIn_pure s
  | merge m =>
    exact (gentle_merge m r).bind (traces_merge m) hpure fun _ _ _ => sparesIn_pure s
  | commits cs =>
    exact (gentle_commits cs r).bind (traces_commits cs) hpure fun _ _ _ => sparesIn_pure s
  | release version time first =>
    have hfirst : ∀ a ∈ first, ∃ u, a = .changelogs u := by
      obtain ⟨-, -, -, -, hbefore, -⟩ := ha.releases
      intro a hmem
      obtain ⟨u, hu, -⟩ := hbefore a hmem
      exact ⟨u, hu⟩
    have hpublish := fun t => traces_publish (σ := Recorder) t version time
    exact (gentle_actAll_changelogs s first hfirst r).bind (traces_actAll s first)
      (fun t => (hpublish t).bind fun _ => traces_pure t) fun t r' _ =>
        (gentle_publish t version time r').bind (hpublish t) (fun _ => traces_pure t)
          fun _ _ _ => sparesIn_pure t
  | changelogs u =>
    exact (gentle_changelogs s u.version u.files r).bind (traces_changelogs s u.version u.files) hpure
      fun _ _ _ => sparesIn_pure s

/-- Actions that keep a definition valid spare all branches, up to the first that is refused. -/
theorem sparesIn_actAll [Pattern.Engine] {as : List Action} (hl : Lockstep d s r)
    (hvalid : Definition.Valid (d ++ as)) : SparesIn r (actAll s as) := by
  induction as generalizing d s r with
  | nil => exact sparesIn_pure s
  | cons a as ih =>
    rw [List.append_cons] at hvalid
    obtain ⟨hd, ha⟩ := Definition.valid_concat.1 hvalid.left
    refine (sparesIn_act hl ha).bind (traces_act s a) (fun t => traces_actAll t as) fun t r' hact => ?_
    rcases lockstep_act hl hd ha with ⟨s', r₁, hact', hl'⟩ | ⟨e, hact', -⟩
    · rw [hact] at hact'
      cases hact'
      exact ih hl' hvalid
    · rw [hact] at hact'
      cases hact'

theorem sparesIn_run [Pattern.Engine] (hd : d.Valid) : SparesIn Recorder.new (run d) :=
  (sparesIn_actAll lockstep_nil hd).bind (traces_actAll .default d) (fun _ => traces_pure ())
    fun _ _ _ => sparesIn_pure ()

/-- The recorder after the first calls of the replay of a definition on a new one. -/
def moment (d : Definition) (n : Nat) : Recorder :=
  after Recorder.new ((calls d Recorder.new).take n)

/-- In the replay of a checked definition, up to its end or to its first refusal, a history at one
moment begins the history of the same branch at each later moment, and at each moment all histories
have the same first entry. -/
theorem histories_of_check_eq_ok [Pattern.Engine] (d : Definition) (h : d.check = .ok ()) :
    moment d (calls d Recorder.new).length = (on (run d) Recorder.new).2 ∧
      ∀ i j, i ≤ j →
        (∀ branch log, (moment d i).history? branch = some log →
          ∃ later, (moment d j).history? branch = some later ∧ log <+: later) ∧
        ∃ first, ∀ branch log, (moment d j).history? branch = some log → log.head? = some first := by
  obtain ⟨p, hp⟩ := Definition.check_eq_ok.1 h
  have hspares := sparesIn_run (Definition.tracks_of_checkFrom hp).1
  refine ⟨?_, fun i j hij => ⟨hspares.grows hij, Recorder.exists_first_afterAll _⟩⟩
  rw [moment, List.take_length]
  exact after_calls d Recorder.new

section

attribute [local instance] Pattern.Engine.builtIn

/-- The history of the main branch after its first commit, and at the end. -/
theorem histories_diverged : diverged.check = .ok () ∧
    (moment diverged 3).history? "main" = some ["first"] ∧
      ∃ later, (moment diverged 15).history? "main" = some later ∧ ["first"] <+: later := by
  have hfirst : (moment diverged 3).history? "main" = some ["first"] := by decide +kernel
  obtain ⟨-, hmoments⟩ := histories_of_check_eq_ok diverged check_diverged
  exact ⟨check_diverged, hfirst, (hmoments 3 15 (by decide)).1 "main" ["first"] hfirst⟩

end

end Replay

end ReleaseHistory
