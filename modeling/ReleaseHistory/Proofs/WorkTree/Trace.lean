import ReleaseHistory.Proofs.WorkTree.Calls
import ReleaseHistory.Replay

/-!
# The calls of a replay

A traced work tree notes every call that is made of it. A replay does the same on it as on the work
tree itself, since it knows nothing of the notes, and what it leaves is what its calls leave.
-/

namespace ReleaseHistory

open Operation WorkTree

/-- A work tree and the calls that were made of it. -/
structure Traced (σ : Type) where
  tree : σ
  calls : List Call

namespace Traced

variable {σ α β : Type}

def record (call : Call) (x : Operation σ α) : Operation (Traced σ) α := do
  let s ← get
  let (result, t) := x.run s.tree
  set (⟨t, s.calls ++ [call]⟩ : Traced σ)
  match result with
  | .ok a => return a
  | .error e => throw e

theorem on_record (call : Call) (x : Operation σ α) (s : σ) (calls : List Call) :
    on (record call x) ⟨s, calls⟩ = ((on x s).1, ⟨(on x s).2, calls ++ [call]⟩) := by
  have hrun : x.run s = on x s := rfl
  simp only [record, on_bind, on_get, hrun]
  rcases on x s with ⟨result, t⟩
  cases result <;> rfl

instance [WorkTree σ] : WorkTree (Traced σ) where
  currentBranch := record .currentBranch WorkTree.currentBranch
  branchExists name := record (.branchExists name) (WorkTree.branchExists name)
  createBranch name start := record (.createBranch name start) (WorkTree.createBranch name start)
  checkout name := record (.checkout name) (WorkTree.checkout name)
  readText path := record (.readText path) (WorkTree.readText path)
  writeText path text := record (.writeText path text) (WorkTree.writeText path text)
  commit message time := record (.commit message time) (WorkTree.commit message time)
  merge branch mode := record (.merge branch mode) (WorkTree.merge branch mode)
  tag name message time := record (.tag name message time) (WorkTree.tag name message time)
  tags := record .tags WorkTree.tags
  log branch := record (.log branch) (WorkTree.log branch)

/-! ### Operations with notes -/

variable [WorkTree σ]

/-- An operation on a traced work tree does what another one does on the work tree, and notes calls
that leave the same. -/
def Traces (x : Operation (Traced σ) α) (y : Operation σ α) : Prop :=
  ∀ s, ∃ calls, (∀ before, on x ⟨s, before⟩ = ((on y s).1, ⟨(on y s).2, before ++ calls⟩)) ∧
    after s calls = (on y s).2

variable {x : Operation (Traced σ) α} {y : Operation σ α} {f : α → Operation (Traced σ) β}
  {g : α → Operation σ β}

theorem traces_quiet {result : Except Fault α} (hx : ∀ s, on x s = (result, s))
    (hy : ∀ s, on y s = (result, s)) : Traces x y := by
  intro s
  refine ⟨[], ?_, ?_⟩
  · intro before
    rw [hx, hy, List.append_nil]
  · rw [hy]
    rfl

theorem traces_pure (a : α) : Traces (pure a : Operation (Traced σ) α) (pure a) :=
  traces_quiet (fun _ => rfl) fun _ => rfl

theorem traces_throw (e : Fault) : Traces (throw e : Operation (Traced σ) α) (throw e) :=
  traces_quiet (fun _ => rfl) fun _ => rfl

theorem traces_record {call : Call} (h : ∀ s, call.after s = (on y s).2) :
    Traces (record call y) y :=
  fun s => ⟨[call], fun before => on_record call y s before, h s⟩

theorem Traces.bind (hx : Traces x y) (hf : ∀ a, Traces (f a) (g a)) :
    Traces (x >>= f) (y >>= g) := by
  intro s
  obtain ⟨calls, hon, hafter⟩ := hx s
  rcases hy : on y s with ⟨result, t⟩
  rw [hy] at hon hafter
  cases result with
  | error e =>
    refine ⟨calls, ?_, ?_⟩
    · intro before
      rw [on_bind_of_error (hon before), on_bind_of_error hy]
    · rw [on_bind_of_error hy]
      exact hafter
  | ok a =>
    obtain ⟨more, hmore, hlast⟩ := hf a t
    refine ⟨calls ++ more, ?_, ?_⟩
    · intro before
      rw [on_bind_of_ok (hon before), on_bind_of_ok hy, hmore, List.append_assoc]
    · rw [on_bind_of_ok hy, after_append, hafter]
      exact hlast

def callsOf (x : Operation (Traced σ) α) (s : σ) : List Call := (on x ⟨s, []⟩).2.calls

theorem Traces.after_callsOf (hx : Traces x y) (s : σ) : after s (callsOf x s) = (on y s).2 := by
  obtain ⟨calls, hon, hafter⟩ := hx s
  rwa [callsOf, hon, List.nil_append]

theorem Traces.callsOf_bind_of_error (hx : Traces x y) {s t : σ} {e : Fault}
    (hy : on y s = (.error e, t)) : callsOf (x >>= f) s = callsOf x s := by
  obtain ⟨calls, hon, -⟩ := hx s
  rw [hy] at hon
  rw [callsOf, on_bind_of_error (hon []), callsOf, hon]

/-- The calls of a sequence are those of its first part and then those of its second. -/
theorem Traces.callsOf_bind_of_ok (hx : Traces x y) (hf : ∀ a, Traces (f a) (g a)) {s t : σ} {a : α}
    (hy : on y s = (.ok a, t)) : callsOf (x >>= f) s = callsOf x s ++ callsOf (f a) t := by
  obtain ⟨calls, hon, -⟩ := hx s
  obtain ⟨more, hmore, -⟩ := hf a t
  rw [hy] at hon
  have hfirst : callsOf x s = calls := by rw [callsOf, hon, List.nil_append]
  have hrest : callsOf (f a) t = more := by rw [callsOf, hmore, List.nil_append]
  rw [hfirst, hrest, callsOf, on_bind_of_ok (hon []), hmore, List.nil_append]

end Traced

/-! ### Replays -/

namespace Replay

open Traced

variable {σ : Type} [WorkTree σ]

theorem traces_readText (path : String) :
    Traces (WorkTree.readText path : Operation (Traced σ) _) (WorkTree.readText path) :=
  traces_record fun _ => rfl

theorem traces_writeText (path text : String) :
    Traces (WorkTree.writeText path text : Operation (Traced σ) _) (WorkTree.writeText path text) :=
  traces_record fun _ => rfl

theorem traces_commit (message time : String) :
    Traces (WorkTree.commit message time : Operation (Traced σ) _) (WorkTree.commit message time) :=
  traces_record fun _ => rfl

theorem traces_tag (name message time : String) :
    Traces (WorkTree.tag name message time : Operation (Traced σ) _) (WorkTree.tag name message time) :=
  traces_record fun _ => rfl

theorem traces_configure (c : Configuration) :
    Traces (configure c : Operation (Traced σ) _) (configure c) := by
  have hlift : ∀ {α : Type} (result : Except Fault α),
      Traces (configure.liftExcept result : Operation (Traced σ) α) (configure.liftExcept result) :=
    fun result => traces_quiet (fun _ => rfl) fun _ => rfl
  refine (hlift _).bind fun f => (hlift _).bind fun text => ?_
  refine (traces_writeText documentFile text).bind fun _ => ?_
  exact (traces_writeText ignoreFile ignoreText).bind fun _ => traces_pure _

theorem traces_checkout (c : Checkout) :
    Traces (checkout c : Operation (Traced σ) _) (checkout c) := by
  cases c with
  | existing branch => exact traces_record fun _ => rfl
  | create name start => exact traces_record fun _ => rfl

theorem traces_merge (m : Merge) : Traces (merge m : Operation (Traced σ) _) (merge m) := by
  obtain ⟨branch, fastForward, commit⟩ := m
  cases fastForward with
  | true => exact traces_record fun _ => rfl
  | false =>
    cases commit with
    | some c => exact traces_record fun _ => rfl
    | none => exact traces_throw _

theorem traces_addChange (message : String) :
    Traces (addChange message : Operation (Traced σ) _) (addChange message) :=
  (traces_readText changesFile).bind fun _ => traces_writeText changesFile _

theorem traces_commits (cs : List Commit) :
    Traces (commits cs : Operation (Traced σ) _) (commits cs) := by
  induction cs with
  | nil => exact traces_pure ()
  | cons c cs ih =>
    refine (traces_addChange c.message).bind fun _ => ?_
    exact (traces_commit c.message c.datetime).bind fun _ => ih

theorem traces_changelogs (s : Settings) (version : String) (fs : List ChangelogFile) :
    Traces (changelogs s version fs : Operation (Traced σ) _) (changelogs s version fs) := by
  induction fs with
  | nil => exact traces_pure ()
  | cons f fs ih =>
    refine (traces_readText f.path).bind fun _ => ?_
    exact (traces_writeText f.path _).bind fun _ => ih

theorem traces_publish (s : Settings) (version time : String) :
    Traces (publish s version time : Operation (Traced σ) _) (publish s version time) := by
  refine (traces_writeText versionFile _).bind fun _ => ?_
  exact (traces_commit _ time).bind fun _ => traces_tag _ _ time

mutual

theorem traces_act (s : Settings) (a : Action) :
    Traces (act s a : Operation (Traced σ) _) (act s a) :=
  match a with
  | .configure c => traces_configure c
  | .checkout c => (traces_checkout c).bind fun _ => traces_pure s
  | .merge m => (traces_merge m).bind fun _ => traces_pure s
  | .commits cs => (traces_commits cs).bind fun _ => traces_pure s
  | .release version time before => (traces_actAll s before).bind fun t =>
    (traces_publish t version time).bind fun _ => traces_pure t
  | .changelogs u => (traces_changelogs s u.version u.files).bind fun _ => traces_pure s

theorem traces_actAll (s : Settings) (as : List Action) :
    Traces (actAll s as : Operation (Traced σ) _) (actAll s as) :=
  match as with
  | [] => traces_pure s
  | a :: as => (traces_act s a).bind fun t => traces_actAll t as

end

theorem actAll_append (s : Settings) (as bs : List Action) :
    (actAll s (as ++ bs) : Operation σ Settings) = actAll s as >>= fun s => actAll s bs := by
  induction as generalizing s with
  | nil => rw [List.nil_append, actAll, pure_bind]
  | cons a as ih => simp only [List.cons_append, actAll, bind_assoc, ih]

def calls (d : Definition) (s : σ) : List Call := callsOf (run d) s

theorem traces_run (d : Definition) : Traces (run d : Operation (Traced σ) _) (run d) :=
  (traces_actAll .default d).bind fun _ => traces_pure ()

theorem after_calls (d : Definition) (s : σ) : after s (calls d s) = (on (run d) s).2 :=
  (traces_run d).after_callsOf s

end Replay

end ReleaseHistory
