import ReleaseHistory.Proofs.Definition.Releases
import ReleaseHistory.Proofs.Replay.Lockstep

/-!
# What a replay leaves on a recorder

A definition that is replayed to its end determines what can be seen of the recorder: the tags, the
operations that were written down, the lines of the commits and the last version. The argument adds
one action at a time; files are told apart by the parts of their paths.
-/

namespace ReleaseHistory

open Operation

/-! ### What a definition says -/

namespace Definition

/-- The commits that are made one by one, in order. -/
def commits (d : Definition) : List Commit :=
  d.flatMap fun
    | .commits cs => cs
    | _ => []

/-- The first line of the message of each commit, with a line feed after it. -/
def changes (d : Definition) : String :=
  String.join (d.commits.map fun c => Text.firstLine c.message ++ "\n")

/-- The operations of an action, where a branch is checked out. -/
def actionTrace (f : TagFormat) (current : String) : Action → List String
  | .checkout (.existing branch) => [s!"checkout {branch}"]
  | .checkout (.create name start) => [s!"branch {name} from {start}", s!"checkout {name}"]
  | .merge m =>
    [if m.fastForward then s!"fast-forward {current} to {m.branch}"
      else s!"merge {m.branch} into {current}"]
  | .commits cs => cs.map fun c => s!"commit {current}: {Text.firstLine c.message}"
  | .release version _ _ =>
    [s!"commit {current}: {Text.firstLine (Replay.releaseMessage version)}",
      s!"tag {f.name version}"]
  | .configure _ => []
  | .changelogs _ => []

def branchAfter (current : String) : Action → String
  | .checkout c => c.target
  | _ => current

/-- The operations of actions in a row, from a branch that is checked out. -/
def traceFrom (f : TagFormat) (current : String) : List Action → List String
  | [] => []
  | a :: as => actionTrace f current a ++ traceFrom f (branchAfter current a) as

def trace (d : Definition) : List String := traceFrom d.tagFormat mainBranch d

variable {d : Definition} {a : Action}

theorem currentBranch_eq_foldl (d : Definition) : d.currentBranch = d.foldl branchAfter mainBranch := by
  induction d using List.reverseRecOn with
  | nil => rfl
  | append_singleton d a ih =>
    rw [currentBranch_concat, List.foldl_append, ← ih]
    cases a <;> rfl

theorem traceFrom_concat (f : TagFormat) (current : String) :
    traceFrom f current (d ++ [a]) =
      traceFrom f current d ++ actionTrace f (d.foldl branchAfter current) a := by
  induction d generalizing current with
  | nil => simp [traceFrom]
  | cons b d ih => rw [List.cons_append, traceFrom, ih, traceFrom, List.append_assoc, List.foldl_cons]

theorem trace_concat (ha : configurations [a] = []) :
    trace (d ++ [a]) = d.trace ++ actionTrace d.tagFormat d.currentBranch a := by
  rw [trace, tagFormat_concat ha, traceFrom_concat, trace, currentBranch_eq_foldl]

theorem traceFrom_quiet {f : TagFormat} {current : String}
    (hd : ∀ a ∈ d, ∃ u, a = .changelogs u) : traceFrom f current d = [] := by
  induction d generalizing current with
  | nil => rfl
  | cons a d ih =>
    obtain ⟨⟨u, rfl⟩, hrest⟩ := List.forall_mem_cons.1 hd
    rw [traceFrom, ih hrest]
    rfl

theorem commits_concat : commits (d ++ [a]) = d.commits ++ commits [a] := by
  simp [commits]

theorem changes_concat : changes (d ++ [a]) = d.changes ++ changes [a] := by
  rw [changes, commits_concat, List.map_append, String.join_append]
  rfl

end Definition

namespace Recorder

variable {r : Recorder}

theorem file?_put {branches : List (String × List String)} {current path text other : String}
    {tags operations : List String} :
    file? ⟨current, branches, put (Path.parts path) text r.files, tags, operations⟩ other =
      if Path.parts other = Path.parts path then some text else r.file? other := by
  simp only [file?, lookup_put]

end Recorder

namespace Replay

variable {d : Definition} {s s' : Settings} {r r' : Recorder} {a : Action}

/-! ### What the parts of a replay write -/

theorem configure_eq_ok {c : Configuration}
    (h : on (configure c) r = (.ok s', r')) :
    TagFormat.ofOption c.tagPattern = .ok s'.tagFormat ∧
      ∃ text, ReleaseDocument.text c s'.tagFormat = .ok text ∧ r' = { r with
        files := Recorder.put (Path.parts ignoreFile) ignoreText
          (Recorder.put (Path.parts documentFile) text r.files) } := by
  rw [configure] at h
  cases hf : TagFormat.ofOption c.tagPattern with
  | error e =>
    rw [hf, on_bind_of_error (on_liftExcept _ r)] at h
    cases h
  | ok f =>
    rw [hf, on_bind_of_ok (on_liftExcept (.ok f) r)] at h
    cases ht : ReleaseDocument.text c f with
    | error e =>
      rw [ht, on_bind_of_error (on_liftExcept _ r)] at h
      cases h
    | ok text =>
      rw [ht, on_bind_of_ok (on_liftExcept (.ok text) r)] at h
      simp only [on_bind, Recorder.on_writeText, on_pure] at h
      cases h
      exact ⟨rfl, text, ht, rfl⟩

theorem file?_changelogs {version : String} {fs : List ChangelogFile} {path : String}
    (hpath : ∀ f ∈ fs, Path.parts f.path ≠ Path.parts path) :
    (on (changelogs s version fs) r).2.file? path = r.file? path := by
  induction fs generalizing r with
  | nil => rfl
  | cons f fs ih =>
    obtain ⟨hfirst, hrest⟩ := List.forall_mem_cons.1 hpath
    simp only [changelogs, on_bind, Recorder.on_readText, Recorder.on_writeText]
    rw [ih hrest, Recorder.file?_put, if_neg hfirst.symm]

theorem file?_actAll_changelogs {first : List Action} {path : String}
    (hfirst : ∀ a ∈ first, ∃ u, a = .changelogs u)
    (hpath : ∀ f ∈ Definition.changelogFiles first, Path.parts f.path ≠ Path.parts path) :
    (on (actAll s first) r).2.file? path = r.file? path := by
  induction first generalizing r with
  | nil => rfl
  | cons a first ih =>
    obtain ⟨⟨u, rfl⟩, hrest⟩ := List.forall_mem_cons.1 hfirst
    obtain ⟨hfiles, hlater⟩ := List.forall_mem_append.1 hpath
    obtain ⟨files, hon⟩ := on_changelogs s u.version u.files r
    have hkept : (on (changelogs s u.version u.files) r).2.file? path = r.file? path :=
      file?_changelogs hfiles
    rw [hon] at hkept
    simp only [actAll, act, on_bind, hon, on_pure]
    rw [ih hrest hlater, hkept]

theorem outcome_commits (cs : List Commit) (r : Recorder) :
    (on (commits cs) r).2.operations =
        r.operations ++ cs.map (fun c => s!"commit {r.current}: {Text.firstLine c.message}") ∧
      (on (commits cs) r).2.file? changesFile =
        (if cs = [] then r.file? changesFile else some ((r.file? changesFile).getD "" ++
          String.join (cs.map fun c => Text.firstLine c.message ++ "\n"))) ∧
      ∀ path, Path.parts path ≠ Path.parts changesFile →
        (on (commits cs) r).2.file? path = r.file? path := by
  induction cs generalizing r with
  | nil => exact ⟨by simp [commits], rfl, fun _ _ => rfl⟩
  | cons c cs ih =>
    have hcons : on (commits (c :: cs)) r = on (commits cs) { r with
        branches := Recorder.put r.current ((r.history? r.current).getD [] ++
          [Text.firstLine c.message]) r.branches
        files := Recorder.put (Path.parts changesFile)
          ((r.file? changesFile).getD "" ++ Text.firstLine c.message ++ "\n") r.files
        operations := r.operations ++ [s!"commit {r.current}: {Text.firstLine c.message}"] } := by
      simp only [commits, addChange, on_bind, Recorder.on_readText, Recorder.on_writeText,
        Recorder.on_commit]
      rfl
    obtain ⟨hoperations, hchanges, hothers⟩ := ih { r with
        branches := Recorder.put r.current ((r.history? r.current).getD [] ++
          [Text.firstLine c.message]) r.branches
        files := Recorder.put (Path.parts changesFile)
          ((r.file? changesFile).getD "" ++ Text.firstLine c.message ++ "\n") r.files
        operations := r.operations ++ [s!"commit {r.current}: {Text.firstLine c.message}"] }
    rw [hcons]
    refine ⟨?_, ?_, ?_⟩
    · rw [hoperations, List.append_assoc]
      rfl
    · rw [hchanges, Recorder.file?_put, if_pos rfl, if_neg (List.cons_ne_nil c cs)]
      split
      · rename_i hcs
        simp [hcs, String.append_assoc]
      · simp [String.join_cons, String.append_assoc]
    · intro path hpath
      rw [hothers path hpath, Recorder.file?_put, if_neg hpath]

/-! ### One action -/

/-- What an action adds to what can be seen of a recorder. -/
structure Adds (f : TagFormat) (a : Action) (r r' : Recorder) : Prop where
  operations : r'.operations = r.operations ++ Definition.actionTrace f r.current a
  changes : r'.file? changesFile = if Definition.commits [a] = [] then r.file? changesFile
    else some ((r.file? changesFile).getD "" ++ Definition.changes [a])
  version : r'.file? versionFile =
    ((Definition.versions [a]).getLast?.map (· ++ "\n")).or (r.file? versionFile)

/-- A changelog that is neither the list of changes nor the version. -/
def Clear (f : ChangelogFile) : Prop :=
  Path.parts f.path ≠ Path.parts changesFile ∧ Path.parts f.path ≠ Path.parts versionFile

theorem changesFile_ne_versionFile : Path.parts changesFile ≠ Path.parts versionFile := by
  decide +kernel

theorem adds_configure {c : Configuration} {f : TagFormat}
    (h : on (act s (.configure c)) r = (.ok s', r')) : Adds f (.configure c) r r' := by
  obtain ⟨-, text, -, rfl⟩ := configure_eq_ok h
  have hkept : ∀ path, Path.parts path ≠ Path.parts ignoreFile →
      Path.parts path ≠ Path.parts documentFile →
        (Recorder.put (Path.parts ignoreFile) ignoreText
          (Recorder.put (Path.parts documentFile) text r.files)).lookup (Path.parts path) =
            r.file? path := by
    intro path hignore hdocument
    rw [Recorder.lookup_put, if_neg hignore, Recorder.lookup_put, if_neg hdocument, Recorder.file?]
  exact ⟨(List.append_nil _).symm, hkept changesFile (by decide +kernel) (by decide +kernel),
    hkept versionFile (by decide +kernel) (by decide +kernel)⟩

theorem adds_checkout {c : Checkout} (h : on (act s (.checkout c)) r = (.ok s', r')) :
    s' = s ∧ Adds s.tagFormat (.checkout c) r r' := by
  rw [act, bind_eq_ok] at h
  obtain ⟨⟨⟩, t, hcheckout, hpure⟩ := h
  cases hpure
  cases c with
  | existing branch =>
    rw [checkout.eq_def, Recorder.on_checkout] at hcheckout
    split at hcheckout
    · cases hcheckout
      exact ⟨rfl, rfl, rfl, rfl⟩
    · cases hcheckout
  | create name start =>
    rw [checkout.eq_def, Recorder.on_createBranch] at hcheckout
    split at hcheckout
    · cases hcheckout
      exact ⟨rfl, List.append_assoc .., rfl, rfl⟩
    · cases hcheckout

theorem adds_merge [Pattern.Engine] {m : Merge} (hl : Lockstep d s r) (ha : d.Fits (.merge m))
    (h : on (act s (.merge m)) r = (.ok s', r')) : s' = s ∧ Adds s.tagFormat (.merge m) r r' := by
  obtain ⟨hb, hc, -⟩ := ha.branches
  rw [← hl.current] at hc
  obtain ⟨source, hsource⟩ := Option.isSome_iff_exists.1 ((hl.branches m.branch).2 hb)
  obtain ⟨target, htarget⟩ := Option.isSome_iff_exists.1 ((hl.branches r.current).2 hc)
  obtain ⟨branch, fastForward, commit⟩ := m
  rw [act, bind_eq_ok] at h
  obtain ⟨⟨⟩, t, hmerge, hpure⟩ := h
  cases hpure
  cases fastForward with
  | true =>
    simp only [merge, Recorder.on_fastForward hsource htarget] at hmerge
    split at hmerge
    · cases hmerge
      exact ⟨rfl, rfl, rfl, rfl⟩
    · cases hmerge
  | false =>
    cases commit with
    | none => cases hmerge
    | some c =>
      simp only [merge, Recorder.on_mergeWithCommit hsource htarget] at hmerge
      cases hmerge
      exact ⟨rfl, rfl, rfl, rfl⟩

theorem adds_commits {cs : List Commit} (h : on (act s (.commits cs)) r = (.ok s', r')) :
    s' = s ∧ Adds s.tagFormat (.commits cs) r r' := by
  rw [act, bind_eq_ok] at h
  obtain ⟨⟨⟩, t, hcommits, hpure⟩ := h
  cases hpure
  obtain ⟨hoperations, hchanges, hothers⟩ := outcome_commits cs r
  rw [hcommits] at hoperations hchanges hothers
  have hcs : Definition.commits [.commits cs] = cs := List.append_nil cs
  refine ⟨rfl, hoperations, ?_, hothers versionFile changesFile_ne_versionFile.symm⟩
  rw [Definition.changes, hcs]
  exact hchanges

theorem adds_release [Pattern.Engine] {version time : String} {first : List Action}
    (hl : Lockstep d s r)
    (ha : d.Fits (.release version time first))
    (hclear : ∀ f ∈ Definition.changelogFiles first, Clear f)
    (h : on (act s (.release version time first)) r = (.ok s', r')) :
    s' = s ∧ Adds s.tagFormat (.release version time first) r r' := by
  obtain ⟨-, -, -, -, hbefore, -⟩ := ha.releases
  have hquiet : ∀ a ∈ first, ∃ u, a = .changelogs u := by
    intro a hmem
    obtain ⟨u, hu, -⟩ := hbefore a hmem
    exact ⟨u, hu⟩
  have hnew : s.tagFormat.name version ∉ r.tags := by
    rw [hl.tags, List.mem_map]
    rintro ⟨other, hother, heq⟩
    rw [s.tagFormat.name_injective heq] at hother
    exact ha.version_not_mem hother
  have hchanges : (on (actAll s first) r).2.file? changesFile = r.file? changesFile :=
    file?_actAll_changelogs hquiet fun f hf => (hclear f hf).1
  obtain ⟨files, hfirst⟩ := on_actAll_changelogs s first r hquiet
  rw [hfirst] at hchanges
  rw [act, on_bind_of_ok hfirst,
    on_bind_of_ok (on_publish s version time { r with files := files } hnew)] at h
  cases h
  refine ⟨rfl, List.append_assoc .., ?_, ?_⟩
  · rw [Recorder.file?_put, if_neg changesFile_ne_versionFile]
    exact hchanges
  · rw [Recorder.file?_put, if_pos rfl]
    rfl

theorem adds_changelogs {u : ChangelogUpdate} (hclear : ∀ f ∈ u.files, Clear f)
    (h : on (act s (.changelogs u)) r = (.ok s', r')) : s' = s ∧ Adds s.tagFormat (.changelogs u) r r' := by
  have hkept : ∀ path, (∀ f ∈ u.files, Path.parts f.path ≠ Path.parts path) →
      (on (changelogs s u.version u.files) r).2.file? path = r.file? path :=
    fun _ => file?_changelogs
  obtain ⟨files, hon⟩ := on_changelogs s u.version u.files r
  rw [hon] at hkept
  rw [act, on_bind_of_ok hon] at h
  cases h
  exact ⟨rfl, (List.append_nil _).symm, hkept changesFile fun f hf => (hclear f hf).1,
    hkept versionFile fun f hf => (hclear f hf).2⟩

/-! ### Whole replays -/

/-- What can be seen of a recorder is what a definition says. -/
structure Outcome (d : Definition) (s : Settings) (r : Recorder) : Prop where
  tagFormat : s.tagFormat = d.tagFormat
  operations : r.operations = d.trace
  changes : r.file? changesFile = if d.commits = [] then none else some d.changes
  version : r.file? versionFile = d.versions.getLast?.map (· ++ "\n")

theorem outcome_nil : Outcome [] .default Recorder.new := ⟨rfl, rfl, rfl, rfl⟩

theorem changes_concat_eq (d : Definition) (a : Action) :
    (if Definition.commits (d ++ [a]) = [] then none else some (Definition.changes (d ++ [a]))) =
      if Definition.commits [a] = [] then (if d.commits = [] then none else some d.changes)
      else some ((if d.commits = [] then none else some d.changes).getD "" ++
        Definition.changes [a]) := by
  rw [Definition.commits_concat, Definition.changes_concat]
  by_cases ha : Definition.commits [a] = []
  · have hnone : Definition.changes [a] = "" := by
      rw [Definition.changes, ha]
      rfl
    simp [ha, hnone]
  · by_cases hd : d.commits = []
    · have hnone : d.changes = "" := by
        rw [Definition.changes, hd]
        rfl
      simp [ha, hd, hnone]
    · simp [ha, hd]

theorem outcome_concat (ho : Outcome d s r) (hadds : Adds s.tagFormat a r r')
    (hformat : s'.tagFormat = Definition.tagFormat (d ++ [a]))
    (htrace : Definition.trace (d ++ [a]) =
      d.trace ++ Definition.actionTrace s.tagFormat r.current a) : Outcome (d ++ [a]) s' r' where
  tagFormat := hformat
  operations := by rw [hadds.operations, ho.operations, htrace]
  changes := by rw [hadds.changes, ho.changes, changes_concat_eq]
  version := by
    rw [hadds.version, ho.version, Definition.versions_concat, List.getLast?_append,
      Option.map_or]

theorem outcome_act [Pattern.Engine] (hl : Lockstep d s r) (ho : Outcome d s r) (ha : d.Fits a)
    (hclear : ∀ f ∈ Definition.actionChangelogs a, Clear f)
    (h : on (act s a) r = (.ok s', r')) : Outcome (d ++ [a]) s' r' := by
  have hunconfigured : Definition.configurations [a] = [] → s' = s ∧ Adds s.tagFormat a r r' →
      Outcome (d ++ [a]) s' r' := by
    rintro hnone ⟨rfl, hadds⟩
    refine outcome_concat ho hadds (ho.tagFormat.trans (Definition.tagFormat_concat hnone).symm) ?_
    rw [Definition.trace_concat hnone, ho.tagFormat, hl.current]
  cases a with
  | configure c =>
    -- before the settings there are only changelogs, which leave no trace
    have hquiet := ha.configuredFirst c rfl
    refine outcome_concat ho (adds_configure h)
      (Definition.tagFormat_configure ha.quiet_of_configure.1 (configure_eq_ok h).1).symm ?_
    rw [Definition.trace, Definition.traceFrom_concat, Definition.traceFrom_quiet hquiet,
      Definition.trace, Definition.traceFrom_quiet hquiet]
    rfl
  | checkout c => exact hunconfigured rfl (adds_checkout h)
  | merge m => exact hunconfigured rfl (adds_merge hl ha h)
  | commits cs => exact hunconfigured rfl (adds_commits h)
  | release version time first =>
    exact hunconfigured rfl (adds_release hl ha hclear h)
  | changelogs u => exact hunconfigured rfl (adds_changelogs hclear h)

theorem outcome_of_actAll [Pattern.Engine] (hd : d.Valid)
    (hclear : ∀ f ∈ Definition.changelogFiles d, Clear f)
    (h : on (actAll .default d) Recorder.new = (.ok s, r)) : Outcome d s r := by
  induction d using List.reverseRecOn generalizing s r with
  | nil =>
    cases h
    exact outcome_nil
  | append_singleton d a ih =>
    obtain ⟨hd, ha⟩ := Definition.valid_concat.1 hd
    rw [Definition.changelogFiles_concat] at hclear
    obtain ⟨hbefore, hlast⟩ := List.forall_mem_append.1 hclear
    obtain ⟨s₁, r₁, hfirst, hact⟩ := on_actAll_concat.1 h
    exact outcome_act (lockstep_of_actAll hd hfirst) (ih hd hbefore hfirst) ha hlast hact

theorem sortedTags_of_nodup (h : r.tags.Nodup) :
    r.sortedTags.Pairwise (· < ·) ∧ r.sortedTags.Perm r.tags := by
  have hperm : r.sortedTags.Perm r.tags := List.mergeSort_perm _ _
  have hsorted : r.sortedTags.Pairwise (· ≤ ·) := by
    refine List.Pairwise.imp of_decide_eq_true (List.pairwise_mergeSort ?_ ?_ r.tags)
    · simpa using fun _ _ _ => String.le_trans
    · simpa using String.le_total
  have hstrict : ∀ a b : String, a ≤ b ∧ a ≠ b → a < b :=
    fun _ _ hab => String.not_le.1 fun hba => hab.2 (String.le_antisymm hab.1 hba)
  exact ⟨(hsorted.and (hperm.nodup_iff.2 h)).imp (hstrict _ _), hperm⟩

/-- Where no changelog is the list of changes or the version, a checked definition that is replayed
to its end fixes what can be seen: the tags in the order of their names, the operations, the list of
changes and the version. -/
theorem outcome_of_run_eq_ok [Pattern.Engine] (d : Definition) (h : d.check = .ok ())
    (hclear : ∀ f ∈ Definition.changelogFiles d, Clear f) {r : Recorder}
    (hrun : on (run d) Recorder.new = (.ok (), r)) :
    (∃ tags, on WorkTree.tags r = (.ok tags, r) ∧ tags.Pairwise (· < ·) ∧
        tags.Perm (d.versions.map d.tagFormat.name)) ∧
      r.operations = d.trace ∧
      r.file? changesFile = (if d.commits = [] then none else some d.changes) ∧
      r.file? versionFile = d.versions.getLast?.map (· ++ "\n") := by
  obtain ⟨p, hp⟩ := Definition.check_eq_ok.1 h
  have hd := (Definition.tracks_of_checkFrom hp).1
  obtain ⟨s, hall⟩ := run_eq_ok.1 hrun
  have ho := outcome_of_actAll hd hclear hall
  have htags : r.tags = d.versions.map d.tagFormat.name := by
    rw [(lockstep_of_actAll hd hall).tags, ho.tagFormat]
  have hnodup : r.tags.Nodup := by
    rw [htags]
    exact hd.nodup_versions.map d.tagFormat.name_injective
  obtain ⟨hsorted, hperm⟩ := sortedTags_of_nodup hnodup
  rw [htags] at hperm
  exact ⟨⟨r.sortedTags, rfl, hsorted, hperm⟩, ho.operations, ho.changes, ho.version⟩

/-- A branch with a merge and a fast-forward back, between two releases. -/
def joined : Definition :=
  [.commits [⟨"first\n\nof all", "2025-01-01T00:00:00+00:00", true⟩],
    .release "1.0.0" "2025-01-01T00:00:01+00:00"
      [.changelogs ⟨"1.0.0", [⟨"CHANGELOG.md", .markdown⟩]⟩],
    .checkout (.create "dev" "main"),
    .commits [⟨"second", "2025-01-01T00:00:02+00:00", true⟩],
    .checkout (.existing "main"),
    .merge ⟨"dev", false, some ⟨"join", "2025-01-01T00:00:03+00:00", true⟩⟩,
    .checkout (.existing "dev"),
    .merge ⟨"main", true, none⟩,
    .release "1.1.0" "2025-01-01T00:00:04+00:00" []]

/-- Whether a run ends without a refusal. -/
def isDone : Except Fault Unit → Bool
  | .ok () => true
  | .error _ => false

theorem isDone_iff {result : Except Fault Unit} : isDone result = true ↔ result = .ok () := by
  cases result <;> simp [isDone]

section

attribute [local instance] Pattern.Engine.builtIn

theorem outcome_joined : joined.check = .ok () ∧
    (∀ f ∈ Definition.changelogFiles joined, Clear f) ∧
    ∃ r, on (run joined) Recorder.new = (.ok (), r) ∧
      (∃ tags, on WorkTree.tags r = (.ok tags, r) ∧ tags.Pairwise (· < ·) ∧
        tags.Perm ["v1.0.0", "v1.1.0"]) ∧
      r.operations = ["commit main: first", "commit main: 1.0.0", "tag v1.0.0",
        "branch dev from main", "checkout dev", "commit dev: second", "checkout main",
        "merge dev into main", "checkout dev", "fast-forward dev to main", "commit dev: 1.1.0",
        "tag v1.1.0"] ∧
      r.file? changesFile = some "first\nsecond\n" ∧ r.file? versionFile = some "1.1.0\n" := by
  have hcheck : joined.check = .ok () := by decide +kernel
  have hclear : ∀ f ∈ Definition.changelogFiles joined, Clear f := by
    have hfiles : Definition.changelogFiles joined = [⟨"CHANGELOG.md", .markdown⟩] := rfl
    rw [hfiles, List.forall_mem_singleton]
    exact ⟨by decide +kernel, by decide +kernel⟩
  have hrun : isDone (on (run joined) Recorder.new).1 = true := by decide +kernel
  rcases hr : on (run joined) Recorder.new with ⟨result, r⟩
  rw [hr, isDone_iff] at hrun
  obtain rfl := hrun
  have htrace : joined.trace = ["commit main: first", "commit main: 1.0.0", "tag v1.0.0",
      "branch dev from main", "checkout dev", "commit dev: second", "checkout main",
      "merge dev into main", "checkout dev", "fast-forward dev to main", "commit dev: 1.1.0",
      "tag v1.1.0"] := by decide +kernel
  have hnames : joined.versions.map joined.tagFormat.name = ["v1.0.0", "v1.1.0"] := by
    decide +kernel
  have hchanges : joined.changes = "first\nsecond\n" := by decide +kernel
  obtain ⟨htags, hoperations, hlist, hversion⟩ := outcome_of_run_eq_ok joined hcheck hclear hr
  rw [hnames] at htags
  rw [hchanges] at hlist
  exact ⟨hcheck, hclear, r, rfl, htags, hoperations.trans htrace, hlist, hversion⟩

end

end Replay

end ReleaseHistory
