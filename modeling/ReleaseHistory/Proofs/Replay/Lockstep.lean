import ReleaseHistory.Proofs.Definition.Progress
import ReleaseHistory.Proofs.ReleaseDocument
import ReleaseHistory.Proofs.TagFormat
import ReleaseHistory.Proofs.WorkTree.Recorder
import ReleaseHistory.Replay

/-!
# Replays keep step with checks

A definition that has been checked is replayed on a recorder. After each action the recorder has the
branches and the current branch that the check has seen, and its tags are the names of the versions
released so far under the one tag format in force. What is left to refuse an action are the settings
and a fast-forward of a branch that is not behind.
-/

namespace ReleaseHistory

open Operation

namespace Replay

/-! ### What can be refused -/

/-- The actions that a recorder can refuse although the definition has been checked. -/
inductive Refused (r : Recorder) : Action → Fault → Prop
  /-- Settings with a tag pattern that has no place for the version. -/
  | tagPattern {c : Configuration} {pattern : String} (some_pattern : c.tagPattern = some pattern)
      (no_place : ¬TagFormat.placeholder <:+: pattern.toList) :
      Refused r (.configure c) (.configuration (.tagPattern pattern))
  /-- Settings with a key that has nothing after its last dot. -/
  | key {c : Configuration} {key : String} {v : Toml} (mem : (key, v) ∈ c.extra)
      (empty_part : (Text.splitOn '.' key).getLast? = some "") :
      Refused r (.configure c) (.configuration (.key key))
  /-- A fast-forward of a branch whose history does not start the other one. -/
  | behind {m : Merge} {source target : List String} (forward : m.fastForward = true)
      (source_eq : r.history? m.branch = some source)
      (target_eq : r.history? r.current = some target) (not_behind : ¬target <+: source) :
      Refused r (.merge m) (.merge (.behind r.current m.branch))

/-! ### Actions on a recorder -/

theorem on_liftExcept {α : Type} (x : Except Fault α) (r : Recorder) :
    on (configure.liftExcept x) r = (x, r) :=
  rfl

/-- Settings that are not refused only write files. -/
theorem on_configure (c : Configuration) (s : Settings) (r : Recorder) :
    (∃ s' files, on (act s (.configure c)) r = (.ok s', { r with files := files })) ∨
      ∃ e, on (act s (.configure c)) r = (.error e, r) ∧ Refused r (.configure c) e := by
  rw [act, configure]
  cases hf : TagFormat.ofOption c.tagPattern with
  | error e =>
    refine Or.inr ⟨e, on_bind_of_error (on_liftExcept _ r), ?_⟩
    cases hpattern : c.tagPattern with
    | none => simp [TagFormat.ofOption, hpattern] at hf
    | some pattern =>
      simp only [TagFormat.ofOption, hpattern] at hf
      split at hf
      · cases hf
      · rename_i hnone
        obtain rfl := Except.error.inj hf
        exact .tagPattern hpattern (TagFormat.ofPattern?_eq_none.1 hnone)
  | ok f =>
    rw [on_bind_of_ok (on_liftExcept (.ok f) r)]
    cases ht : ReleaseDocument.text c f with
    | error e =>
      refine Or.inr ⟨e, on_bind_of_error (on_liftExcept _ r), ?_⟩
      unfold ReleaseDocument.text ReleaseDocument.table at ht
      cases hall : ReleaseDocument.insertAll c.extra (ReleaseDocument.baseTable c f) with
      | ok t => simp [hall, Except.map] at ht
      | error e' =>
        rw [hall] at ht
        obtain rfl := Except.error.inj ht
        obtain ⟨key, v, hmem, hkey, rfl⟩ := ReleaseDocument.insertAll_eq_error hall
        exact .key hmem hkey
    | ok text =>
      refine Or.inl ⟨⟨f, c.maskInitialRelease⟩, Recorder.put (Path.parts ignoreFile) ignoreText
        (Recorder.put (Path.parts documentFile) text r.files), ?_⟩
      rw [on_bind_of_ok (on_liftExcept (.ok text) r)]
      simp only [on_bind, Recorder.on_writeText, on_pure]

/-- Changelogs are never refused and only write files. -/
theorem on_changelogs (s : Settings) (version : String) (fs : List ChangelogFile) (r : Recorder) :
    ∃ files, on (changelogs s version fs) r = (.ok (), { r with files := files }) := by
  induction fs generalizing r with
  | nil => exact ⟨r.files, rfl⟩
  | cons f fs ih =>
    obtain ⟨files, h⟩ := ih { r with
      files := Recorder.put (Path.parts f.path) (Changelog.update f.format (r.file? f.path)
        (s.tagFormat.name version) s.maskInitialRelease) r.files }
    exact ⟨files, by simpa [changelogs, on_bind] using h⟩

theorem on_actAll_changelogs (s : Settings) (first : List Action) (r : Recorder)
    (h : ∀ a ∈ first, ∃ u, a = .changelogs u) :
    ∃ files, on (actAll s first) r = (.ok s, { r with files := files }) := by
  induction first generalizing r with
  | nil => exact ⟨r.files, rfl⟩
  | cons a rest ih =>
    obtain ⟨u, rfl⟩ := h a (List.mem_cons_self ..)
    obtain ⟨files, hu⟩ := on_changelogs s u.version u.files r
    obtain ⟨files', hrest⟩ := ih { r with files := files }
      fun b hb => h b (List.mem_cons_of_mem _ hb)
    refine ⟨files', ?_⟩
    simp only [actAll, act, on_bind, hu, on_pure]
    exact hrest

/-- Commits are never refused; they bring the current branch into being and change no other. -/
theorem on_commits (cs : List Commit) (r : Recorder) :
    ∃ r', on (commits cs) r = (.ok (), r') ∧ r'.current = r.current ∧ r'.tags = r.tags ∧
      ∀ branch, (r'.history? branch).isSome = true ↔
        (r.history? branch).isSome = true ∨ branch = r.current ∧ cs ≠ [] := by
  induction cs generalizing r with
  | nil => exact ⟨r, rfl, rfl, rfl, by simp⟩
  | cons c cs ih =>
    obtain ⟨r', hon, hcurrent, htags, hbranches⟩ := ih (on (WorkTree.commit c.message c.datetime)
      (on (addChange c.message) r).2).2
    refine ⟨r', ?_, hcurrent, htags, fun branch => ?_⟩
    · simpa [commits, on_bind, addChange, Recorder.on_commit] using hon
    · rw [hbranches]
      simp only [addChange, on_bind, Recorder.on_readText, Recorder.on_writeText,
        Recorder.on_commit, Recorder.history?, Recorder.lookup_put]
      by_cases h : branch = r.current
      · simp [h]
      · simp [h]

theorem on_publish (s : Settings) (version time : String) (r : Recorder)
    (hnew : s.tagFormat.name version ∉ r.tags) :
    on (publish s version time) r = (.ok (), { r with
      branches := Recorder.put r.current ((r.history? r.current).getD [] ++
        [Text.firstLine (releaseMessage version)]) r.branches
      files := Recorder.put (Path.parts versionFile) (version ++ "\n") r.files
      tags := r.tags ++ [s.tagFormat.name version]
      operations := r.operations ++ [s!"commit {r.current}: {Text.firstLine (releaseMessage version)}"]
        ++ [s!"tag {s.tagFormat.name version}"] }) := by
  simp only [publish, on_bind, Recorder.on_writeText, Recorder.on_commit, Recorder.on_tag, hnew,
    if_false]
  rfl

theorem on_act_fastForward {s : Settings} {r : Recorder} {m : Merge} {source target : List String}
    (hforward : m.fastForward = true) (hsource : r.history? m.branch = some source)
    (htarget : r.history? r.current = some target) :
    on (act s (.merge m)) r = if target <+: source then
        (.ok s, { r with
          branches := Recorder.put r.current source r.branches
          operations := r.operations ++ [s!"fast-forward {r.current} to {m.branch}"] })
      else (.error (.merge (.behind r.current m.branch)), r) := by
  simp only [act, merge, hforward, on_bind, Recorder.on_fastForward hsource htarget]
  by_cases hbehind : target <+: source
  · simp only [if_pos hbehind, on_pure]
  · simp only [if_neg hbehind]

theorem on_act_mergeWithCommit {s : Settings} {r : Recorder} {m : Merge} {c : Commit}
    {source target : List String} (hforward : m.fastForward = false) (hcommit : m.commit = some c)
    (hsource : r.history? m.branch = some source) (htarget : r.history? r.current = some target) :
    on (act s (.merge m)) r = (.ok s, { r with
      branches := Recorder.put r.current
        (target ++ source.filter (fun s => !target.contains s) ++ [c.message]) r.branches
      operations := r.operations ++ [s!"merge {m.branch} into {r.current}"] }) := by
  simp only [act, merge, hforward, hcommit, on_bind, Recorder.on_mergeWithCommit hsource htarget,
    on_pure]

/-! ### One action -/

/-- A recorder and the settings in force agree with the actions replayed so far. -/
structure Lockstep (d : Definition) (s : Settings) (r : Recorder) : Prop where
  branches : ∀ branch, (r.history? branch).isSome = true ↔ d.HasBranch branch
  current : r.current = d.currentBranch
  tags : r.tags = d.versions.map s.tagFormat.name

theorem lockstep_nil : Lockstep [] .default Recorder.new where
  branches _ := by simp [Recorder.new, Recorder.history?, Definition.not_hasBranch_nil]
  current := rfl
  tags := rfl

section

variable {d : Definition} {s : Settings} {r : Recorder}

theorem lockstep_changelogs (u : ChangelogUpdate) (hl : Lockstep d s r) :
    ∃ r', on (act s (.changelogs u)) r = (.ok s, r') ∧ Lockstep (d ++ [.changelogs u]) s r' := by
  obtain ⟨files, hon⟩ := on_changelogs s u.version u.files r
  refine ⟨{ r with files := files }, ?_, ?_, ?_, ?_⟩
  · simp only [act, on_bind, hon, on_pure]
  · intro branch
    rw [Definition.hasBranch_concat]
    simpa [Recorder.history?] using hl.branches branch
  · simpa [Definition.currentBranch_concat] using hl.current
  · simpa [Definition.versions_concat, Definition.versions] using hl.tags

/-- Whatever a merge is, it only gives the current branch a new history. -/
theorem lockstep_merged {m : Merge} (hl : Lockstep d s r) (hc : d.HasBranch r.current)
    (history operations : List String) :
    Lockstep (d ++ [.merge m]) s { r with
      branches := Recorder.put r.current history r.branches
      operations := operations } := by
  refine ⟨fun other => ?_, ?_, ?_⟩
  · rw [Definition.hasBranch_concat]
    by_cases ho : other = r.current
    · simp [Recorder.history?, Recorder.lookup_put, ho, hc]
    · simpa [Recorder.history?, Recorder.lookup_put, ho] using hl.branches other
  · simpa [Definition.currentBranch_concat] using hl.current
  · simpa [Definition.versions_concat, Definition.versions] using hl.tags

variable [Pattern.Engine]

theorem lockstep_configure {c : Configuration} (hl : Lockstep d s r) (ha : d.Fits (.configure c)) :
    (∃ s' r', on (act s (.configure c)) r = (.ok s', r') ∧
        Lockstep (d ++ [.configure c]) s' r') ∨
      ∃ e, on (act s (.configure c)) r = (.error e, r) ∧ Refused r (.configure c) e := by
  rcases on_configure c s r with ⟨s', files, hon⟩ | h
  · refine Or.inl ⟨s', _, hon, ?_, ?_, ?_⟩
    · intro branch
      rw [Definition.hasBranch_concat]
      simpa [Recorder.history?] using hl.branches branch
    · simpa [Definition.currentBranch_concat] using hl.current
    · -- nothing has been released before the settings
      have hnone : d.versions = [] := by
        refine List.eq_nil_iff_forall_not_mem.2 fun version hversion => ?_
        obtain ⟨a, ha', hsome⟩ := List.mem_filterMap.1 hversion
        obtain ⟨u, rfl⟩ := ha.configuredFirst c rfl a ha'
        cases hsome
      have htags := hl.tags
      rw [hnone] at htags
      rw [Definition.versions_concat, hnone]
      exact htags
  · exact Or.inr h

theorem lockstep_checkout {c : Checkout} (hl : Lockstep d s r) (ha : d.Fits (.checkout c)) :
    ∃ r', on (act s (.checkout c)) r = (.ok s, r') ∧ Lockstep (d ++ [.checkout c]) s r' := by
  cases c with
  | existing branch =>
    obtain ⟨h, hh⟩ := Option.isSome_iff_exists.1 ((hl.branches branch).2 ha.branches)
    have hon : on (act s (.checkout (.existing branch))) r = (.ok s, { r with
        current := branch
        operations := r.operations ++ [s!"checkout {branch}"] }) := by
      simp only [act, checkout, on_bind, Recorder.on_checkout, hh, on_pure]
    refine ⟨_, hon, ?_, ?_, ?_⟩
    · intro other
      rw [Definition.hasBranch_concat]
      simpa [Recorder.history?] using hl.branches other
    · simp [Definition.currentBranch_concat, Checkout.target]
    · simpa [Definition.versions_concat, Definition.versions] using hl.tags
  | create name start =>
    obtain ⟨h, hh⟩ := Option.isSome_iff_exists.1 ((hl.branches start).2 ha.branches.2)
    have hon : on (act s (.checkout (.create name start))) r = (.ok s, { r with
        current := name
        branches := Recorder.put name h r.branches
        operations := r.operations ++ [s!"branch {name} from {start}"] ++
          [s!"checkout {name}"] }) := by
      simp only [act, checkout, on_bind, Recorder.on_createBranch, hh, on_pure]
    refine ⟨_, hon, ?_, ?_, ?_⟩
    · intro other
      rw [Definition.hasBranch_concat, ← hl.branches]
      by_cases ho : other = name
      · simp [Recorder.history?, Recorder.lookup_put, ho]
      · simp [Recorder.history?, Recorder.lookup_put, ho, Ne.symm ho]
    · simp [Definition.currentBranch_concat, Checkout.target]
    · simpa [Definition.versions_concat, Definition.versions] using hl.tags

/-- A merge is replayed in step, unless it moves a branch that is not behind. -/
theorem lockstep_merge {m : Merge} (hl : Lockstep d s r) (ha : d.Fits (.merge m)) :
    (∃ r', on (act s (.merge m)) r = (.ok s, r') ∧ Lockstep (d ++ [.merge m]) s r') ∨
      ∃ e, on (act s (.merge m)) r = (.error e, r) ∧ Refused r (.merge m) e := by
  obtain ⟨hb, hc, -⟩ := ha.branches
  rw [← hl.current] at hc
  obtain ⟨source, hsource⟩ := Option.isSome_iff_exists.1 ((hl.branches m.branch).2 hb)
  obtain ⟨target, htarget⟩ := Option.isSome_iff_exists.1 ((hl.branches r.current).2 hc)
  have hrule := ha.mergeCommits m rfl
  cases hforward : m.fastForward with
  | true =>
    have hon := on_act_fastForward (s := s) hforward hsource htarget
    by_cases hbehind : target <+: source
    · rw [if_pos hbehind] at hon
      exact Or.inl ⟨_, hon, lockstep_merged hl hc _ _⟩
    · rw [if_neg hbehind] at hon
      exact Or.inr ⟨_, hon, .behind hforward hsource htarget hbehind⟩
  | false =>
    cases hcommit : m.commit with
    | none =>
      rw [hrule.2 hcommit] at hforward
      cases hforward
    | some c =>
      exact Or.inl ⟨_, on_act_mergeWithCommit hforward hcommit hsource htarget,
        lockstep_merged hl hc _ _⟩

theorem lockstep_commits (cs : List Commit) (hl : Lockstep d s r) (hd : d.Valid) :
    ∃ r', on (act s (.commits cs)) r = (.ok s, r') ∧ Lockstep (d ++ [.commits cs]) s r' := by
  obtain ⟨r', hon, hcurrent, htags, hbranches⟩ := on_commits cs r
  refine ⟨r', ?_, ?_, ?_, ?_⟩
  · simp only [act, on_bind, hon, on_pure]
  · intro branch
    have hborn := hd.current_born
    have hcs : cs ≠ [] ↔ ∃ c cs', cs = c :: cs' := List.ne_nil_iff_exists_cons
    simp only [hbranches, Definition.hasBranch_concat, hl.branches, hl.current, hcs,
      Action.commits.injEq, reduceCtorEq, exists_const, false_or]
    grind
  · rw [hcurrent, hl.current, Definition.currentBranch_concat]
  · rw [htags, hl.tags, Definition.versions_concat]
    simp [Definition.versions]

/-- A version that may be released has no tag yet, so its release is not refused. -/
theorem on_act_release {version time : String} {first : List Action} (hl : Lockstep d s r)
    (ha : d.Fits (.release version time first)) :
    ∃ files, on (act s (.release version time first)) r = (.ok s, { r with
      branches := Recorder.put r.current ((r.history? r.current).getD [] ++
        [Text.firstLine (releaseMessage version)]) r.branches
      files := Recorder.put (Path.parts versionFile) (version ++ "\n") files
      tags := r.tags ++ [s.tagFormat.name version]
      operations := r.operations ++
        [s!"commit {r.current}: {Text.firstLine (releaseMessage version)}"] ++
        [s!"tag {s.tagFormat.name version}"] }) := by
  have hchangelogs : ∀ a ∈ first, ∃ u, a = .changelogs u := by
    obtain ⟨v, channel, -, -, hfirst, -⟩ := ha.releases
    intro a hmem
    obtain ⟨u, hu, -⟩ := hfirst a hmem
    exact ⟨u, hu⟩
  have hnew : s.tagFormat.name version ∉ r.tags := by
    rw [hl.tags, List.mem_map]
    rintro ⟨other, hother, heq⟩
    rw [s.tagFormat.name_injective heq] at hother
    exact ha.version_not_mem hother
  obtain ⟨files, hfirst⟩ := on_actAll_changelogs s first r hchangelogs
  refine ⟨files, ?_⟩
  rw [act, on_bind_of_ok hfirst,
    on_bind_of_ok (on_publish s version time { r with files := files } hnew), on_pure]
  rfl

theorem lockstep_release {version time : String} {first : List Action} (hl : Lockstep d s r)
    (ha : d.Fits (.release version time first)) :
    ∃ r', on (act s (.release version time first)) r = (.ok s, r') ∧
      Lockstep (d ++ [.release version time first]) s r' := by
  have hb : d.HasBranch d.currentBranch := ha.branches
  obtain ⟨files, hon⟩ := on_act_release hl ha
  refine ⟨_, hon, ?_, ?_, ?_⟩
  · intro branch
    rw [Definition.hasBranch_concat, ← hl.branches]
    rw [← hl.current, ← hl.branches] at hb
    by_cases ho : branch = r.current
    · rw [ho]
      exact iff_of_true (by simp [Recorder.history?, Recorder.lookup_put]) (Or.inl hb)
    · simp [Recorder.history?, Recorder.lookup_put, ho]
  · simpa [Definition.currentBranch_concat] using hl.current
  · simp [hl.tags, Definition.versions]

/-- An action that keeps a definition valid is replayed in step with the check, or is refused for
one of the reasons that a check does not look for. -/
theorem lockstep_act {a : Action} (hl : Lockstep d s r) (hd : d.Valid) (ha : d.Fits a) :
    (∃ s' r', on (act s a) r = (.ok s', r') ∧ Lockstep (d ++ [a]) s' r') ∨
      ∃ e, on (act s a) r = (.error e, r) ∧ Refused r a e := by
  cases a with
  | configure c => exact lockstep_configure hl ha
  | changelogs u => exact Or.inl ⟨s, lockstep_changelogs u hl⟩
  | checkout c => exact Or.inl ⟨s, lockstep_checkout hl ha⟩
  | merge m =>
    rcases lockstep_merge hl ha with h | h
    · exact Or.inl ⟨s, h⟩
    · exact Or.inr h
  | commits cs => exact Or.inl ⟨s, lockstep_commits cs hl hd⟩
  | release version time first => exact Or.inl ⟨s, lockstep_release hl ha⟩

end

/-! ### Whole replays -/

theorem on_actAll_concat {d : Definition} {a : Action} {s s₂ : Settings} {r r₂ : Recorder} :
    on (actAll s (d ++ [a])) r = (.ok s₂, r₂) ↔
      ∃ s₁ r₁, on (actAll s d) r = (.ok s₁, r₁) ∧ on (act s₁ a) r₁ = (.ok s₂, r₂) := by
  induction d generalizing s r with
  | nil =>
    simp only [List.nil_append, actAll, bind_eq_ok, on_pure, Prod.mk.injEq, Except.ok.injEq]
    grind
  | cons b d ih =>
    simp only [List.cons_append, actAll, bind_eq_ok, ih]
    grind

/-- A replay that is refused is refused by one of its actions, with those before it replayed. -/
theorem actAll_eq_error {d : Definition} {e : Fault} {s : Settings} {r r₂ : Recorder}
    (h : on (actAll s d) r = (.error e, r₂)) :
    ∃ (before after : Definition) (a : Action) (s₁ : Settings) (r₁ : Recorder),
      d = before ++ a :: after ∧ on (actAll s before) r = (.ok s₁, r₁) ∧
        on (act s₁ a) r₁ = (.error e, r₂) := by
  induction d generalizing s r with
  | nil =>
    rw [actAll, on_pure] at h
    cases h
  | cons a d ih =>
    rw [actAll] at h
    rcases bind_eq_error.1 h with hact | ⟨s₁, r₁, hact, hrest⟩
    · exact ⟨[], d, a, s, r, rfl, rfl, hact⟩
    · obtain ⟨before, after, b, s₂, r₂, rfl, hbefore, hb⟩ := ih hrest
      refine ⟨a :: before, after, b, s₂, r₂, rfl, ?_, hb⟩
      rw [actAll, on_bind_of_ok hact]
      exact hbefore

/-- The actions of a valid definition that are replayed are replayed in step with the check. -/
theorem lockstep_of_actAll [Pattern.Engine] {d : Definition} {s : Settings} {r : Recorder}
    (hd : d.Valid)
    (h : on (actAll .default d) Recorder.new = (.ok s, r)) : Lockstep d s r := by
  induction d using List.reverseRecOn generalizing s r with
  | nil =>
    rw [actAll, on_pure] at h
    cases h
    exact lockstep_nil
  | append_singleton d a ih =>
    obtain ⟨hd, ha⟩ := Definition.valid_concat.1 hd
    obtain ⟨s₁, r₁, hbefore, hact⟩ := on_actAll_concat.1 h
    rcases lockstep_act (ih hd hbefore) hd ha with ⟨s', r', hact', hl⟩ | ⟨e, hact', -⟩
    · rw [hact] at hact'
      cases hact'
      exact hl
    · rw [hact] at hact'
      cases hact'

theorem run_eq_error {d : Definition} {e : Fault} {r r' : Recorder} :
    on (run d) r = (.error e, r') ↔ on (actAll .default d) r = (.error e, r') := by
  rw [run, bind_eq_error]
  constructor
  · rintro (hall | ⟨s, t, -, hpure⟩)
    · exact hall
    · rw [on_pure] at hpure
      cases hpure
  · exact Or.inl

/-- The action that ends a replay is refused for one of the reasons that a check does not look for,
and leaves what those before it have left. -/
theorem exists_refused [Pattern.Engine] {d : Definition} {e : Fault} {r : Recorder} (hd : d.Valid)
    (h : on (run d) Recorder.new = (.error e, r)) :
    ∃ (before after : Definition) (a : Action) (s : Settings), d = before ++ a :: after ∧
      on (actAll .default before) Recorder.new = (.ok s, r) ∧
        on (act s a) r = (.error e, r) ∧ Refused r a e := by
  obtain ⟨before, after, a, s, r₁, rfl, hbefore, hact⟩ := actAll_eq_error (run_eq_error.1 h)
  rw [List.append_cons] at hd
  obtain ⟨hvalid, ha⟩ := Definition.valid_concat.1 hd.left
  rcases lockstep_act (lockstep_of_actAll hvalid hbefore) hvalid ha with
    ⟨s', r', hact', -⟩ | ⟨e', hact', hrefused⟩
  · rw [hact] at hact'
    cases hact'
  · rw [hact] at hact'
    cases hact'
    exact ⟨before, after, a, s, rfl, hbefore, hact, hrefused⟩

/-- The replay of a checked definition has, after any of its actions, the branches that the check
has seen. It can be refused only by settings or by a fast-forward of a branch that is not behind. -/
theorem replay_of_check_eq_ok [Pattern.Engine] (d : Definition) (h : d.check = .ok ()) :
    (∀ (before after : Definition) (s : Settings) (r : Recorder), d = before ++ after →
      on (actAll .default before) Recorder.new = (.ok s, r) →
        ∃ p, Definition.checkFrom .start 0 before = .ok p ∧ r.current = p.current ∧
          ∀ branch, (r.history? branch).isSome = true ↔ branch ∈ p.branches) ∧
    ∀ (e : Fault) (r : Recorder), on (run d) Recorder.new = (.error e, r) →
      ∃ (before after : Definition) (a : Action) (s : Settings), d = before ++ a :: after ∧
        on (actAll .default before) Recorder.new = (.ok s, r) ∧
          on (act s a) r = (.error e, r) ∧ Refused r a e := by
  obtain ⟨p, hp⟩ := Definition.check_eq_ok.1 h
  have hd := (Definition.tracks_of_checkFrom hp).1
  constructor
  · rintro before after s r rfl hbefore
    have hl := lockstep_of_actAll hd.left hbefore
    obtain ⟨q, hq⟩ := Definition.exists_checkFrom_of_valid 0 hd.left
    have htracks := (Definition.tracks_of_checkFrom hq).2
    refine ⟨q, hq, hl.current.trans htracks.current.symm, fun branch => ?_⟩
    rw [hl.branches, htracks.branches]
  · exact fun e r hrun => exists_refused hd hrun

/-- Two branches with a commit each, of which one is then to be moved to the other. -/
def diverged : Definition :=
  [.commits [⟨"first", "2025-01-01T00:00:00+00:00", true⟩],
    .checkout (.create "dev" "main"),
    .commits [⟨"second", "2025-01-01T00:00:01+00:00", true⟩],
    .release "1.0.0" "2025-01-01T00:00:02+00:00" [],
    .checkout (.existing "main"),
    .commits [⟨"third", "2025-01-01T00:00:03+00:00", true⟩],
    .merge ⟨"dev", true, none⟩]

/-- Whether a run ends with the refusal to move a branch to another that does not contain it. -/
def isBehind (target source : String) : Except Fault Unit → Bool
  | .error (.merge (.behind target' source')) => decide (target' = target ∧ source' = source)
  | _ => false

theorem isBehind_iff {target source : String} {result : Except Fault Unit} :
    isBehind target source result = true ↔ result = .error (.merge (.behind target source)) := by
  constructor
  · intro h
    unfold isBehind at h
    split at h
    · obtain ⟨rfl, rfl⟩ := of_decide_eq_true h
      rfl
    · cases h
  · rintro rfl
    simp [isBehind]

section

attribute [local instance] Pattern.Engine.builtIn

theorem check_diverged : diverged.check = .ok () := by decide +kernel

theorem exists_run_diverged :
    ∃ r, on (run diverged) Recorder.new = (.error (.merge (.behind "main" "dev")), r) := by
  have hrun : isBehind "main" "dev" (on (run diverged) Recorder.new).1 = true := by decide +kernel
  rcases hr : on (run diverged) Recorder.new with ⟨result, r⟩
  rw [hr, isBehind_iff] at hrun
  exact ⟨r, Prod.ext hrun rfl⟩

/-- The two branches are checked; the move is refused after all that comes before it. -/
theorem replay_diverged :
    diverged.check = .ok () ∧ ∃ (before after : Definition) (a : Action) (s : Settings)
      (r : Recorder), diverged = before ++ a :: after ∧
        on (actAll .default before) Recorder.new = (.ok s, r) ∧
          on (act s a) r = (.error (.merge (.behind "main" "dev")), r) ∧
            Refused r a (.merge (.behind "main" "dev")) := by
  obtain ⟨r, hr⟩ := exists_run_diverged
  obtain ⟨before, after, a, s, h⟩ := (replay_of_check_eq_ok diverged check_diverged).2 _ r hr
  exact ⟨check_diverged, before, after, a, s, r, h⟩

end

/-! ### Replays that end early -/

theorem run_eq_ok {d : Definition} {r r' : Recorder} :
    on (run d) r = (.ok (), r') ↔ ∃ s, on (actAll .default d) r = (.ok s, r') := by
  rw [run, bind_eq_ok]
  constructor
  · rintro ⟨s, t, hall, hpure⟩
    cases hpure
    exact ⟨s, hall⟩
  · rintro ⟨s, hall⟩
    exact ⟨s, r', hall, rfl⟩

theorem on_actAll_append_of_ok {before after : Definition} {s s₁ : Settings} {r r₁ : Recorder}
    (h : on (actAll s before) r = (.ok s₁, r₁)) :
    on (actAll s (before ++ after)) r = on (actAll s₁ after) r₁ := by
  induction before generalizing s r with
  | nil =>
    cases h
    rfl
  | cons a before ih =>
    rw [actAll, bind_eq_ok] at h
    obtain ⟨s₂, r₂, hact, hbefore⟩ := h
    rw [List.cons_append, actAll, on_bind_of_ok hact, ih hbefore]

/-- A replay of a checked definition that is refused leaves exactly what the actions before the
refused one leave, which are replayed without a refusal. -/
theorem run_take_of_run_eq_error [Pattern.Engine] (d : Definition) (h : d.check = .ok ())
    {e : Fault} {r : Recorder}
    (hrun : on (run d) Recorder.new = (.error e, r)) :
    ∃ i, i < d.length ∧ on (run (d.take i)) Recorder.new = (.ok (), r) ∧
      on (run (d.take (i + 1))) Recorder.new = (.error e, r) := by
  obtain ⟨p, hp⟩ := Definition.check_eq_ok.1 h
  obtain ⟨before, after, a, s, rfl, hbefore, hact, -⟩ :=
    exists_refused (Definition.tracks_of_checkFrom hp).1 hrun
  refine ⟨before.length, by simp, ?_, ?_⟩
  · rw [List.take_left, run_eq_ok]
    exact ⟨s, hbefore⟩
  · have htake : (before ++ a :: after).take (before.length + 1) = before ++ [a] := by
      rw [List.take_length_add_append]
      rfl
    rw [htake, run_eq_error, on_actAll_append_of_ok hbefore, actAll, on_bind_of_error hact]

section

attribute [local instance] Pattern.Engine.builtIn

/-- The move that is refused leaves nothing behind. -/
theorem run_take_diverged :
    diverged.check = .ok () ∧ ∃ r,
      on (run diverged) Recorder.new = (.error (.merge (.behind "main" "dev")), r) ∧
        ∃ i, i < diverged.length ∧ on (run (diverged.take i)) Recorder.new = (.ok (), r) ∧
          on (run (diverged.take (i + 1))) Recorder.new =
            (.error (.merge (.behind "main" "dev")), r) := by
  obtain ⟨r, hr⟩ := exists_run_diverged
  exact ⟨check_diverged, r, hr, run_take_of_run_eq_error diverged check_diverged hr⟩

end

end Replay

end ReleaseHistory
