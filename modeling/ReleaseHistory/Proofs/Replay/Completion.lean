import Mathlib.Logic.Function.Basic
import ReleaseHistory.Proofs.Replay.Outcome
import ReleaseHistory.Proofs.WorkTree.Trace

/-!
# Which definitions are replayed to their end

The check looks at every action but not at all that can refuse it. The settings are refused for a
pattern without a place for the version and for a key that ends in a dot, and a fast-forward is
refused where the history of the branch that is checked out does not begin the other one. Histories
are given by the actions alone, so whether a checked definition is replayed to its end can be read
off from it.
-/

namespace ReleaseHistory

open Operation

namespace Definition

/-! ### Histories -/

/-- The histories of all branches after an action, where a branch is checked out. -/
def logsAfter (current : String) (logs : String → List String) : Action → String → List String
  | .checkout (.existing _) => logs
  | .checkout (.create name start) => Function.update logs name (logs start)
  | .merge m =>
    let source := logs m.branch
    let target := logs current
    Function.update logs current <|
      if m.fastForward then source
      else target ++ source.filter (fun s => !target.contains s) ++ (m.commit.map (·.message)).toList
  | .commits cs =>
    Function.update logs current (logs current ++ cs.map fun c => Text.firstLine c.message)
  | .release version _ _ =>
    Function.update logs current (logs current ++ [Text.firstLine (Replay.releaseMessage version)])
  | .configure _ => logs
  | .changelogs _ => logs

/-- The histories after actions in a row, from a branch that is checked out. -/
def logsFrom (current : String) (logs : String → List String) : List Action → String → List String
  | [] => logs
  | a :: as => logsFrom (branchAfter current a) (logsAfter current logs a) as

/-- The history of each branch after a definition; it is empty where there is no such branch. -/
def logs (d : Definition) : String → List String := logsFrom mainBranch (fun _ => []) d

variable {d : Definition} {a : Action}

theorem logsFrom_concat (current : String) (logs : String → List String) :
    logsFrom current logs (d ++ [a]) =
      logsAfter (d.foldl branchAfter current) (logsFrom current logs d) a := by
  induction d generalizing current logs with
  | nil => rfl
  | cons b d ih => rw [List.cons_append, logsFrom, ih, List.foldl_cons, logsFrom]

theorem logs_concat : logs (d ++ [a]) = logsAfter d.currentBranch d.logs a := by
  rw [logs, logsFrom_concat, ← currentBranch_eq_foldl, logs]

/-! ### What a replay needs besides a check -/

/-- Settings that can be written, and fast-forwards of branches that are behind. -/
structure Completes (d : Definition) : Prop where
  patterns : ∀ c, .configure c ∈ d → ∀ p ∈ c.tagPattern, TagFormat.placeholder <:+: p.toList
  keys : ∀ c, .configure c ∈ d → ∀ entry ∈ c.extra, (Text.splitOn '.' entry.1).getLast? ≠ some ""
  forwards : d.Each fun before a => ∀ m, a = .merge m → m.fastForward = true →
    before.logs before.currentBranch <+: before.logs m.branch

end Definition

namespace Replay

variable {d : Definition} {a : Action} {s s' : Settings} {r r' : Recorder}

/-! ### Histories of a recorder -/

/-- The history of a branch, empty where there is no such branch. -/
def log (r : Recorder) (branch : String) : List String := (r.history? branch).getD []

theorem log_eq {branch : String} {history : List String} (h : r.history? branch = some history) :
    log r branch = history := by
  rw [log, h, Option.getD_some]

theorem log_put {current name : String} {history : List String} {tags operations : List String}
    {files : List (List Path.Part × String)} :
    log ⟨current, Recorder.put name history r.branches, files, tags, operations⟩ =
      Function.update (log r) name history := by
  funext branch
  rw [log, Recorder.history?, Recorder.lookup_put, Function.update_apply]
  split <;> rfl

theorem log_commits (cs : List Commit) (r : Recorder) :
    log (on (commits cs) r).2 =
      Function.update (log r) r.current (log r r.current ++ cs.map fun c => Text.firstLine c.message) := by
  induction cs generalizing r with
  | nil =>
    rw [List.map_nil, List.append_nil, Function.update_eq_self]
    rfl
  | cons c cs ih =>
    have hcons : (on (commits (c :: cs)) r).2 = (on (commits cs) { r with
        branches := Recorder.put r.current (log r r.current ++ [Text.firstLine c.message]) r.branches
        files := Recorder.put (Path.parts changesFile)
          ((r.file? changesFile).getD "" ++ Text.firstLine c.message ++ "\n") r.files
        operations := r.operations ++ [s!"commit {r.current}: {Text.firstLine c.message}"] }).2 := by
      simp only [commits, addChange, on_bind, Recorder.on_readText, Recorder.on_writeText,
        Recorder.on_commit]
      rfl
    rw [hcons, ih, log_put, Function.update_self, Function.update_idem, List.append_assoc]
    rfl

theorem log_act_merge [Pattern.Engine] {m : Merge} (hl : Lockstep d s r) (ha : d.Fits (.merge m))
    (hact : on (act s (.merge m)) r = (.ok s', r')) :
    log r' = Definition.logsAfter r.current (log r) (.merge m) := by
  obtain ⟨hb, hc, -⟩ := ha.branches
  rw [← hl.current] at hc
  obtain ⟨source, hsource⟩ := Option.isSome_iff_exists.1 ((hl.branches m.branch).2 hb)
  obtain ⟨target, htarget⟩ := Option.isSome_iff_exists.1 ((hl.branches r.current).2 hc)
  rw [Definition.logsAfter, log_eq hsource, log_eq htarget]
  cases hforward : m.fastForward with
  | true =>
    rw [on_act_fastForward hforward hsource htarget] at hact
    split at hact
    · cases hact
      rw [log_put, if_pos rfl]
    · cases hact
  | false =>
    cases hcommit : m.commit with
    | none =>
      rw [(ha.mergeCommits m rfl).2 hcommit] at hforward
      cases hforward
    | some c =>
      rw [on_act_mergeWithCommit hforward hcommit hsource htarget] at hact
      cases hact
      rw [log_put, if_neg Bool.false_ne_true]
      rfl

/-- An action that is not refused changes the histories of a recorder as it says. -/
theorem log_act [Pattern.Engine] (hl : Lockstep d s r) (ha : d.Fits a)
    (hact : on (act s a) r = (.ok s', r')) :
    log r' = Definition.logsAfter r.current (log r) a := by
  cases a with
  | configure c =>
    obtain ⟨-, text, -, rfl⟩ := configure_eq_ok hact
    rfl
  | changelogs u =>
    obtain ⟨files, hwrite⟩ := on_changelogs s u.version u.files r
    simp only [act, on_bind, hwrite, on_pure] at hact
    cases hact
    rfl
  | checkout c =>
    cases c with
    | existing branch =>
      obtain ⟨history, hhistory⟩ := Option.isSome_iff_exists.1 ((hl.branches branch).2 ha.branches)
      simp only [act, checkout, on_bind, Recorder.on_checkout, hhistory, on_pure] at hact
      cases hact
      rfl
    | create name start =>
      obtain ⟨history, hhistory⟩ := Option.isSome_iff_exists.1 ((hl.branches start).2 ha.branches.2)
      simp only [act, checkout, on_bind, Recorder.on_createBranch, hhistory, on_pure] at hact
      cases hact
      rw [log_put, Definition.logsAfter, log_eq hhistory]
  | merge m => exact log_act_merge hl ha hact
  | commits cs =>
    have hlog := log_commits cs r
    obtain ⟨r₁, hcommits, -⟩ := on_commits cs r
    simp only [act, on_bind, hcommits, on_pure] at hact
    cases hact
    rw [hcommits] at hlog
    exact hlog
  | release version time first =>
    obtain ⟨files, hrelease⟩ := on_act_release hl ha
    rw [hrelease] at hact
    cases hact
    exact log_put

theorem log_of_actAll [Pattern.Engine] (hd : d.Valid)
    (h : on (actAll .default d) Recorder.new = (.ok s, r)) :
    log r = d.logs := by
  induction d using List.reverseRecOn generalizing s r with
  | nil =>
    cases h
    rfl
  | append_singleton d a ih =>
    obtain ⟨hd, ha⟩ := Definition.valid_concat.1 hd
    obtain ⟨s₁, r₁, hbefore, hact⟩ := on_actAll_concat.1 h
    have hl := lockstep_of_actAll hd hbefore
    rw [log_act hl ha hact, ih hd hbefore, hl.current, Definition.logs_concat]

/-! ### Refusals -/

theorem not_refused [Pattern.Engine] {before after : Definition} {e : Fault}
    (hcompletes : d.Completes)
    (hd : before.Valid) (hsplit : d = before ++ a :: after)
    (hbefore : on (actAll .default before) Recorder.new = (.ok s, r)) : ¬Refused r a e := by
  have hmem : a ∈ d := by
    rw [hsplit]
    simp
  intro hrefused
  cases hrefused with
  | tagPattern hpattern hplace => exact hplace (hcompletes.patterns _ hmem _ hpattern)
  | key hentry hpart => exact hcompletes.keys _ hmem _ hentry hpart
  | behind hforward hsource htarget hbehind =>
    have hprefix := hcompletes.forwards before _ after hsplit _ rfl hforward
    rw [← (lockstep_of_actAll hd hbefore).current, ← log_of_actAll hd hbefore, log_eq hsource,
      log_eq htarget] at hprefix
    exact hbehind hprefix

theorem exists_act_of_actAll {before after : Definition} {s₂ : Settings} {r₂ : Recorder}
    (h : on (actAll s (before ++ a :: after)) r = (.ok s₂, r₂)) :
    ∃ s₁ r₁ s' r', on (actAll s before) r = (.ok s₁, r₁) ∧ on (act s₁ a) r₁ = (.ok s', r') := by
  rw [actAll_append, bind_eq_ok] at h
  obtain ⟨s₁, r₁, hbefore, h⟩ := h
  rw [actAll, bind_eq_ok] at h
  obtain ⟨s', r', hact, -⟩ := h
  exact ⟨s₁, r₁, s', r', hbefore, hact⟩

theorem completes_of_actAll [Pattern.Engine] (hd : d.Valid)
    (h : on (actAll .default d) Recorder.new = (.ok s, r)) : d.Completes := by
  have hconfigure : ∀ c, .configure c ∈ d → ∃ (r₁ : Recorder) (s' : Settings) (r' : Recorder),
      on (configure c) r₁ = (.ok s', r') := by
    intro c hmem
    obtain ⟨before, after, hsplit⟩ := List.append_of_mem hmem
    rw [hsplit] at h
    obtain ⟨_, r₁, s', r', -, hact⟩ := exists_act_of_actAll h
    exact ⟨r₁, s', r', hact⟩
  refine ⟨?_, ?_, ?_⟩
  · intro c hmem
    obtain ⟨r₁, s', r', hon⟩ := hconfigure c hmem
    exact TagFormat.exists_ofOption.1 ⟨_, (configure_eq_ok hon).1⟩
  · intro c hmem
    obtain ⟨r₁, s', r', hon⟩ := hconfigure c hmem
    obtain ⟨-, text, htext, -⟩ := configure_eq_ok hon
    exact ReleaseDocument.exists_text.1 ⟨text, htext⟩
  · intro before a after hsplit m ha hforward
    subst ha
    rw [hsplit] at h hd
    rw [List.append_cons] at hd
    obtain ⟨hbefore, hfits⟩ := Definition.valid_concat.1 hd.left
    obtain ⟨s₁, r₁, s', r', hall, hact⟩ := exists_act_of_actAll h
    have hl := lockstep_of_actAll hbefore hall
    obtain ⟨hb, hc, -⟩ := hfits.branches
    rw [← hl.current] at hc
    obtain ⟨source, hsource⟩ := Option.isSome_iff_exists.1 ((hl.branches m.branch).2 hb)
    obtain ⟨target, htarget⟩ := Option.isSome_iff_exists.1 ((hl.branches r₁.current).2 hc)
    rw [← hl.current, ← log_of_actAll hbefore hall, log_eq hsource, log_eq htarget]
    rw [on_act_fastForward hforward hsource htarget] at hact
    by_contra hbehind
    rw [if_neg hbehind] at hact
    cases hact

/-- A definition that is accepted is replayed to its end on a new recorder exactly if its tag pattern
has a place for the version, none of its keys ends in a dot and no fast-forward finds the branch that
is checked out with entries that the other branch does not begin with. -/
theorem exists_run_iff_completes [Pattern.Engine] (d : Definition) (h : d.check = .ok ()) :
    (∃ r, on (run d) Recorder.new = (.ok (), r)) ↔ d.Completes := by
  obtain ⟨p, hp⟩ := Definition.check_eq_ok.1 h
  have hd := (Definition.tracks_of_checkFrom hp).1
  constructor
  · intro hrun
    obtain ⟨r, hrun⟩ := hrun
    obtain ⟨s, hall⟩ := run_eq_ok.1 hrun
    exact completes_of_actAll hd hall
  · intro hcompletes
    rcases hrun : on (run d) Recorder.new with ⟨result, r⟩
    cases result with
    | ok _ => exact ⟨r, rfl⟩
    | error e =>
      obtain ⟨before, after, a, s, hsplit, hbefore, -, hrefused⟩ := exists_refused hd hrun
      rw [hsplit] at hd
      exact absurd hrefused (not_refused hcompletes hd.left hsplit hbefore)

section

attribute [local instance] Pattern.Engine.builtIn

/-- A fast-forward back is replayed to its end, one between branches that have come apart is not. -/
theorem completes_joined : joined.check = .ok () ∧ joined.Completes ∧
    diverged.check = .ok () ∧ ¬diverged.Completes := by
  have hcheck : joined.check = .ok () := by decide +kernel
  have hrun : isDone (on (run joined) Recorder.new).1 = true := by decide +kernel
  refine ⟨hcheck, (exists_run_iff_completes joined hcheck).1 ?_, check_diverged, ?_⟩
  · rcases hon : on (run joined) Recorder.new with ⟨result, r⟩
    rw [hon, isDone_iff] at hrun
    obtain rfl : result = .ok () := hrun
    exact ⟨r, rfl⟩
  · intro hcompletes
    obtain ⟨r, hr⟩ := (exists_run_iff_completes diverged check_diverged).2 hcompletes
    obtain ⟨r', hr'⟩ := exists_run_diverged
    rw [hr] at hr'
    cases hr'

/-- Settings alone, with a tag pattern and with other values. -/
def settingsOnly (pattern : Option String) (extra : Toml.Table) : Definition :=
  [.configure ⟨.angular, "github", "example.com", pattern, false,
    { groups := [], allowZeroVersion := true }, extra⟩]

/-- Settings whose tag pattern has no place for the version, settings with a key that ends in a dot,
and a fast-forward between branches that have come apart: each is accepted, and none is replayed. -/
theorem run_refused :
    (settingsOnly (some "release") []).check = .ok () ∧
      (settingsOnly none [("remote.", .string "none")]).check = .ok () ∧
      diverged.check = .ok () ∧
      ∀ d ∈ [settingsOnly (some "release") [], settingsOnly none [("remote.", .string "none")],
        diverged], ¬∃ r, on (run d) Recorder.new = (.ok (), r) := by
  have hdone : ∀ d ∈ [settingsOnly (some "release") [],
      settingsOnly none [("remote.", .string "none")], diverged],
      isDone (on (run d) Recorder.new).1 = false := by
    decide +kernel
  refine ⟨by decide +kernel, by decide +kernel, check_diverged, ?_⟩
  intro d hd hrun
  obtain ⟨r, hr⟩ := hrun
  have hrefused := hdone d hd
  rw [hr] at hrefused
  cases hrefused

end

end Replay

end ReleaseHistory
