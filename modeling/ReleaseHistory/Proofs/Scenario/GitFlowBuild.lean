import ReleaseHistory.Proofs.Build
import ReleaseHistory.Proofs.Replay.Followed
import ReleaseHistory.Proofs.Scenario.GitFlow

/-!
# The flow is built

Every file of the flow is written again on several branches, so a merge of branches that have both
moved on would conflict. None does: a branch is merged only where it is ahead of its target, which a
sketch of the flow tells. Sketches leave out the wording and the times, so the one of the usual flow
is the one of all.
-/

namespace ReleaseHistory

open Operation Git Repository
open FileTree (Named)

variable {i : Identity} {time : String}

/-- The merges, in order. -/
def Definition.merges (d : Definition) : List Merge :=
  d.filterMap fun
    | .merge m => some m
    | _ => none

namespace Scenario.GitFlow

open Definition

variable {o : Options} {message : MergeMessage} {c : Time.Clock}

/-! ### Merges -/

def Step.forwards : Step → List Bool
  | .land .. => [false]
  | .promote .. => [false]
  | .catchUp .. => [true]
  | _ => []

theorem Step.merges_actions (s : Step) :
    (merges (s.actions o message c).1).map (·.fastForward) = s.forwards := by
  cases s <;> rfl

theorem merges_actions (ss : List Step) :
    (merges (actions o message ss c).1).map (·.fastForward) = ss.flatMap Step.forwards := by
  induction ss generalizing c with
  | nil => rfl
  | cons s ss ih =>
    have hfirst : (merges (s.actions o message c).1).map (·.fastForward) = s.forwards :=
      s.merges_actions
    have hrest := ih (c := (s.actions o message c).2)
    rw [List.flatMap_cons, ← hfirst, ← hrest]
    simp only [actions, merges, List.filterMap_append, List.map_append]

theorem merges_write (o : Options) (message : MergeMessage) (c : Time.Clock) :
    (merges (write o message c).1).countP (·.fastForward) = 4 ∧
      (merges (write o message c).1).countP (! ·.fastForward) = 10 := by
  have hmerges : (merges (write o message c).1).map (·.fastForward) = steps.flatMap Step.forwards := by
    rw [write_fst]
    exact merges_actions steps
  have hcount : ∀ p : Bool → Bool, (merges (write o message c).1).countP (fun m => p m.fastForward) =
      (steps.flatMap Step.forwards).countP p := by
    intro p
    rw [← hmerges, List.countP_map]
    rfl
  exact ⟨(hcount id).trans (by decide), (hcount not).trans (by decide)⟩

/-! ### Texts of steps -/

def Step.texts : Step → List String
  | .start text => [text]
  | .work angular emoji scipy => [angular, emoji, scipy]
  | _ => []

/-- The source and the target of a merge that a step makes a commit for. -/
def Step.pairs : Step → List (String × String)
  | .land source target => [(source, target)]
  | .promote source target => [(source, target)]
  | _ => []

theorem pairs_steps : ∀ s ∈ steps, ∀ p ∈ s.pairs, p.1 ∈ branches ∧ p.2 ∈ branches := by
  decide

theorem nul_notMem_texts : ∀ s ∈ steps, ∀ text ∈ s.texts, '\x00' ∉ text.toList := by
  decide

theorem apart_changelogFiles (version : String) : Replay.Apart ⟨version, changelogFiles⟩ := by
  have hplain : ∀ f ∈ changelogFiles, FileTree.Plain f.path ∧ f.path ≠ FileTree.storeName := by
    decide
  exact hplain

theorem wording_mem_texts (angular emoji scipy : String) (convention : Convention) :
    wording angular emoji scipy convention ∈ (Step.work angular emoji scipy).texts := by
  cases convention <;> simp [wording, Step.texts]

theorem storable_commit {text : String} {inChangelog : Bool} (hsigns : Replay.Signs i time)
    (htext : '\x00' ∉ text.toList) :
    ∀ a ∈ [Action.commits [⟨text, time, inChangelog⟩]], Replay.Storable i a := by
  intro a ha
  rw [List.mem_singleton.1 ha]
  intro commit hcommit
  rw [List.mem_singleton.1 hcommit]
  exact ⟨hsigns, htext⟩

theorem storable_mergeInto {source target : String} {inChangelog : Bool}
    (hsigns : Replay.Signs i (c.stamp c.ticks)) (htext : '\x00' ∉ (message source target).toList) :
    ∀ a ∈ (mergeInto message source target inChangelog c).1, Replay.Storable i a := by
  intro a ha
  rcases List.mem_cons.1 ha with rfl | ha
  · trivial
  · rw [List.mem_singleton.1 ha]
    intro commit hcommit
    cases hcommit
    exact ⟨hsigns, htext⟩

theorem storable_release {version : String} (hsigns : Replay.Signs i time) :
    Replay.Storable i (.release version time [.changelogs ⟨version, changelogFiles⟩]) := by
  refine ⟨hsigns, fun a ha => ?_⟩
  exact ⟨_, List.mem_singleton.1 ha, apart_changelogFiles version⟩

theorem Step.storable_actions {s : Step}
    (hmessage : ∀ p ∈ s.pairs, '\x00' ∉ (message p.1 p.2).toList)
    (htexts : ∀ text ∈ s.texts, '\x00' ∉ text.toList)
    (htimes : ∀ time ∈ times (s.actions o message c).1, Replay.Signs i time) :
    ∀ a ∈ (s.actions o message c).1, Replay.Storable i a := by
  cases s with
  | start text =>
    have hsigns := htimes _ (List.mem_singleton_self _)
    exact storable_commit hsigns (htexts text (List.mem_singleton_self text))
  | branch name base =>
    intro a ha
    rw [List.mem_singleton.1 ha]
    trivial
  | work angular emoji scipy =>
    have hsigns := htimes _ (List.mem_singleton_self _)
    exact storable_commit hsigns (htexts _ (wording_mem_texts angular emoji scipy o.convention))
  | land source target =>
    have hsigns := htimes _ (List.mem_singleton_self _)
    exact storable_mergeInto hsigns (hmessage _ (List.mem_singleton_self _))
  | promote source target =>
    have hsigns := htimes _ (List.mem_singleton_self _)
    exact storable_mergeInto hsigns (hmessage _ (List.mem_singleton_self _))
  | catchUp target source =>
    intro a ha
    rcases List.mem_cons.1 ha with rfl | ha
    · trivial
    · rw [List.mem_singleton.1 ha]
      intro commit hcommit
      cases hcommit
  | release version =>
    intro a ha
    rw [List.mem_singleton.1 ha]
    exact storable_release (htimes _ (List.mem_singleton_self _))

theorem storable_actions {ss : List Step}
    (hmessage : ∀ s ∈ ss, ∀ p ∈ s.pairs, '\x00' ∉ (message p.1 p.2).toList)
    (htexts : ∀ s ∈ ss, ∀ text ∈ s.texts, '\x00' ∉ text.toList)
    (htimes : ∀ time ∈ times (actions o message ss c).1, Replay.Signs i time) :
    ∀ a ∈ (actions o message ss c).1, Replay.Storable i a := by
  induction ss generalizing c with
  | nil => exact fun a ha => nomatch ha
  | cons s ss ih =>
    obtain ⟨hmessages, hlater⟩ := List.forall_mem_cons.1 hmessage
    obtain ⟨hfirst, hrest⟩ := List.forall_mem_cons.1 htexts
    simp only [actions, times, List.flatMap_append, List.forall_mem_append] at htimes ⊢
    exact ⟨s.storable_actions hmessages hfirst htimes.1, ih hlater hrest htimes.2⟩

theorem storable_write {text : String} {n : Nat}
    (hmessage : ∀ source ∈ branches, ∀ target ∈ branches, '\x00' ∉ (message source target).toList)
    (hclock : Time.Clock.parse text = .ok c)
    (hyear : (c.start.addSeconds (n + 23)).localDate.year ≤ 9999) (hi : i.Accepted) :
    ∀ a ∈ (actions o message steps (Time.Clock.nextMany n c).2).1, Replay.Storable i a := by
  have hmerges : ∀ s ∈ steps, ∀ p ∈ s.pairs, '\x00' ∉ (message p.1 p.2).toList := by
    intro s hs p hp
    obtain ⟨hsource, htarget⟩ := pairs_steps s hs p hp
    exact hmessage p.1 hsource p.2 htarget
  apply storable_actions hmerges nul_notMem_texts
  intro time hmem
  have hwritten : time ∈ times (write o message (Time.Clock.nextMany n c).2).1 := by
    rw [write_fst, times_cons]
    exact List.mem_append_right _ hmem
  rw [times_write_nextMany o message hclock n] at hwritten
  obtain ⟨k, hk, rfl⟩ := List.mem_map.1 hwritten
  have hle : n + k ≤ n + 23 := by
    have := List.mem_range.1 hk
    omega
  have hfirst := Int.le_trans (c.start.year_addSeconds_mono hle) hyear
  exact Replay.signs_of_accepted hi ((Time.Clock.parse_stamp_iff hclock (n + k)).2 ⟨hfirst, rfl⟩)

/-! ### The sketch of the flow -/

/-- The references of the releases of the flow, the last one first. -/
def references : List String :=
  ["refs/tags/v1.1.0", "refs/tags/v1.1.0-beta.1", "refs/tags/v1.1.0-alpha.1",
    "refs/tags/v1.1.0-rev.1+feat/feature-2", "refs/tags/v1.0.1-beta.2", "refs/tags/v1.0.1-alpha.2",
    "refs/tags/v1.0.1-beta.1", "refs/tags/v1.0.1-alpha.1", "refs/tags/v1.0.0"]

theorem sketch_actions (o : Options) (message : MergeMessage) (c : Time.Clock) :
    ∃ k, Sketch.start.run .default (actions o message steps c).1 = some k ∧
      k.current = mainBranch ∧ k.branches = branches ∧ k.tags = references := by
  rw [Sketch.run_congr (alike_actions o (.ofConvention .angular) message .usual steps c
    (.ofStart ⟨0, 0, 0⟩))]
  have hseen : (Sketch.start.run .default (actions (.ofConvention .angular) .usual steps
      (.ofStart ⟨0, 0, 0⟩)).1).map (fun k => (k.current, k.branches, k.tags)) =
        some (mainBranch, branches, references) := by
    decide +kernel
  obtain ⟨k, hk, heq⟩ := Option.map_eq_some_iff.1 hseen
  simp only [Prod.mk.injEq] at heq
  exact ⟨k, hk, heq⟩

theorem actions_append (ss ss' : List Step) :
    (actions o message (ss ++ ss') c).1 = (actions o message ss c).1 ++
      (actions o message ss' (actions o message ss c).2).1 := by
  induction ss generalizing c with
  | nil => rfl
  | cons s ss ih => simp only [List.cons_append, actions, ih, List.append_assoc]

theorem exists_last_release (o : Options) (message : MergeMessage) (c : Time.Clock) :
    ∃ before time, (actions o message steps c).1 =
      before ++ [.release "1.1.0" time [.changelogs ⟨"1.1.0", changelogFiles⟩]] := by
  have hsteps : steps = steps.dropLast ++ [.release "1.1.0"] := rfl
  rw [hsteps, actions_append]
  exact ⟨_, _, rfl⟩

/-! ### The repository of the flow -/

/-- What is built from the flow in a directory. -/
structure Built (root : Location) (w : FileTree) (s : Store) : Prop where
  store : storeAt? w root = some s
  head : s.head = .branch "refs/heads/main"
  branches : ∀ key, (s.branches.lookup key).isSome = true ↔ key ∈ branches.map Sketch.full
  tags : s.tags.map (·.1) = references
  version : w.get? (root ++ [Replay.versionFile]) = some (.text "1.1.0\n")

theorem built_of_sketched {start r : Repository} {objects : List Encoded} {s : Store} {k : Sketch}
    (h : Sketched start objects k s r) (hcurrent : k.current = mainBranch)
    (hbranches : k.branches = branches) (htags : k.tags = references)
    (htext : r.files.own? (start.root ++ [Replay.versionFile]) = some (.text "1.1.0\n")) :
    Built start.root r.files s where
  store := by
    rw [← h.intact.root]
    exact h.intact.store?
  head := by
    rw [h.head, hcurrent]
    rfl
  branches := by
    intro key
    rw [h.branches, hbranches, List.mem_map]
    simp only [eq_comm]
  tags := h.tags.trans htags
  version := FileTree.get?_of_own? (by simp) htext

/-! ### The run of the flow -/

section Run

variable {start r : Repository} {objects : List Encoded} {s : Store} {settings : Replay.Settings}

theorem exists_actAll_actions [Git.Merger] [Git.LawfulMerger]
    (h : Sketched start objects .start s r) (hdistinct : Distinct objects)
    (hformat : settings.tagFormat = .default)
    (hstorable : ∀ a ∈ (actions o message steps c).1, Replay.Storable start.identity a)
    (hoffers : Offers objects (Replay.actAll settings (actions o message steps c).1) r) :
    ∃ k t r', on (Replay.actAll settings (actions o message steps c).1) r = (.ok settings, r') ∧
      Sketched start objects k t r' ∧ k.current = mainBranch ∧ k.branches = branches ∧
        k.tags = references ∧
          r'.files.own? (start.root ++ [Replay.versionFile]) = some (.text "1.1.0\n") := by
  obtain ⟨k, hk, hcurrent, hbranches, htags⟩ := sketch_actions o message c
  obtain ⟨before, time, heq⟩ := exists_last_release o message c
  rw [heq, ← hformat] at hk
  rw [heq] at hstorable hoffers ⊢
  obtain ⟨hbefore, hlast⟩ := List.forall_mem_append.1 hstorable
  obtain ⟨k₁, t₁, r₁, hon₁, hk₁, h₁, hoffers₁⟩ :=
    h.exists_actAll_before hdistinct hk hbefore hoffers
  obtain ⟨k₂, hk₂, hend⟩ := Option.bind_eq_some_iff.1 hk₁
  cases hend
  obtain ⟨t, r', hon, h', htext⟩ :=
    h₁.exists_release hdistinct hk₂ (hlast _ (List.mem_singleton_self _)) hoffers₁.head
  refine ⟨k, t, r', ?_, h', hcurrent, hbranches, htags, htext⟩
  rw [Replay.actAll_append, on_bind_of_ok hon₁, Replay.actAll, on_bind_of_ok hon]
  rfl

theorem exists_forwards [Git.Merger] [Git.LawfulMerger] {before after : List Action} {m : Merge}
    (h : Sketched start objects .start s r) (hdistinct : Distinct objects)
    (hformat : settings.tagFormat = .default)
    (hstorable : ∀ a ∈ (actions o message steps c).1, Replay.Storable start.identity a)
    (hoffers : Offers objects (Replay.actAll settings (actions o message steps c).1) r)
    (hsplit : (actions o message steps c).1 = before ++ .merge m :: after) :
    ∃ t r', on (Replay.actAll settings before) r = (.ok settings, r') ∧ r'.store? = some t ∧
      r'.Forwards t m.branch := by
  obtain ⟨k, hk, -⟩ := sketch_actions o message c
  rw [hsplit, ← hformat] at hk
  rw [hsplit] at hstorable hoffers
  obtain ⟨k₁, t, r', hon, hk₁, h', -⟩ := h.exists_actAll_before hdistinct hk
    (fun a ha => hstorable a (List.mem_append_left _ ha)) hoffers
  obtain ⟨k₂, hk₂, -⟩ := Option.bind_eq_some_iff.1 hk₁
  exact ⟨t, r', hon, h'.intact.store?, h'.forwards_of_merge hk₂⟩

theorem tagFormat_configuration (h : o.tagPattern = none) :
    TagFormat.ofOption (configuration o).tagPattern = .ok .default := by
  rw [configuration, h]
  rfl

theorem text_configuration (h : o.extra = []) {f : TagFormat} :
    ReleaseDocument.text (configuration o) f = .ok (Toml.write [("semantic_release",
      .table (ReleaseDocument.baseTable (configuration o) f))]) := by
  rw [ReleaseDocument.text, ReleaseDocument.table, configuration, h]
  rfl

/-- The flow is replayed to its end, and each branch that it merges is ahead by then. -/
theorem exists_run_write [Git.Merger] [Git.LawfulMerger] {clock : Time.Clock}
    (h : Sketched start objects .start s r) (hdistinct : Distinct objects)
    (hpattern : o.tagPattern = none) (hextra : o.extra = [])
    (hstorable : ∀ a ∈ (actions o message steps clock).1, Replay.Storable start.identity a)
    (hoffers : Offers objects (Replay.run (write o message clock).1) r) :
    (∃ r' t, on (Replay.run (write o message clock).1) r = (.ok (), r') ∧
      Built start.root r'.files t) ∧
    ∀ before m after, (write o message clock).1 = before ++ .merge m :: after →
      ∃ settings r' t, on (Replay.actAll .default before) r = (.ok settings, r') ∧
        r'.store? = some t ∧ r'.Forwards t m.branch := by
  have hreplaying := hoffers.ofRun
  rw [write_fst] at hreplaying
  obtain ⟨r₁, hconfigure, h₁⟩ := h.exists_configure (tagFormat_configuration hpattern)
    (text_configuration hextra)
  have hact : on (Replay.act .default (.configure (configuration o))) r =
    (.ok ⟨.default, o.maskInitialRelease⟩, r₁) := hconfigure
  have hoffers₁ := hreplaying.tail hact
  constructor
  · obtain ⟨k, t, r', hon, h', hcurrent, hbranches, htags, htext⟩ :=
      exists_actAll_actions h₁ hdistinct rfl hstorable hoffers₁
    refine ⟨r', t, ?_, built_of_sketched h' hcurrent hbranches htags htext⟩
    rw [Replay.run, write_fst, Replay.actAll, bind_assoc, on_bind_of_ok hact, on_bind_of_ok hon]
    rfl
  · intro before m after hsplit
    rw [write_fst] at hsplit
    cases before with
    | nil => cases hsplit
    | cons a before =>
      obtain ⟨rfl, hrest⟩ := List.cons.inj hsplit
      obtain ⟨t, r', hon, hstore, hforwards⟩ :=
        exists_forwards h₁ hdistinct rfl hstorable hoffers₁ hrest
      refine ⟨⟨.default, o.maskInitialRelease⟩, r', t, ?_, hstore, hforwards⟩
      rw [Replay.actAll, on_bind_of_ok hact]
      exact hon

end Run

/-! ### Building the flow -/

/-- The flow is built in an empty directory, whatever the convention, the wording of merges, the
identity and the clock, as long as all can be stored. Each merge moves on to a branch that is ahead of
the target, and has no conflict. This is so unless two different commits of the flow have the same
name. -/
theorem build_write [Git.Merger] [Git.LawfulMerger] [Pattern.Engine] (hread : ReadsPolicy)
    (o : Options) (message : MergeMessage) (n : Nat) {text : String} {t v : FileTree}
    {base root : Location} {path : String} (hpattern : o.tagPattern = none) (hextra : o.extra = [])
    (hmessage : ∀ source ∈ branches, ∀ target ∈ branches, '\x00' ∉ (message source target).toList)
    (hclock : Time.Clock.parse text = .ok c)
    (hyear : (c.start.addSeconds (n + 23)).localDate.year ≤ 9999) (hi : i.Accepted)
    (ht : t.WellFormed) (hslashless : t.Slashless) (hbase : Named base)
    (hdirectory : on (FileTree.createDirectory base path) t = (.ok root, v))
    (hempty : FileTree.Empty root v) :
    let d := (write o message (Time.Clock.nextMany n c).2).1
    (merges d).countP (·.fastForward) = 4 ∧ (merges d).countP (! ·.fastForward) = 10 ∧
      ∃ r u, on (create base path i) t = (.ok r, u) ∧ (Collision (r.written (Replay.calls d r)) ∨
        (∃ w s, on (d.build base path i) t = (.ok (), w) ∧ Built root w s) ∧
          ∀ before m after, d = before ++ .merge m :: after → ∃ settings r' s,
            on (Replay.actAll .default before) r = (.ok settings, r') ∧ r'.store? = some s ∧
              r'.Forwards s m.branch) := by
  intro d
  obtain ⟨hforward, hcommit⟩ := merges_write o message (Time.Clock.nextMany n c).2
  obtain ⟨hname, hemail⟩ := nul_notMem_of_accepted hi
  obtain ⟨r, u, hcreate, rfl, rfl, hstart⟩ :=
    Sketched.exists_create ht hslashless hbase hname hemail hdirectory hempty
  refine ⟨hforward, hcommit, r, u, hcreate, ?_⟩
  rcases collision_or_distinct (r.written (Replay.calls d r)) with hcollision | hdistinct
  · exact .inl hcollision
  · right
    have hcheck : d.check = .ok () := by
      rw [check_write_iff_chronological hread, times_write_nextMany o message hclock n]
      exact (Time.Clock.chronological_iff hclock n 23).2 hyear
    have hstorable := storable_write (o := o) hmessage hclock hyear hi
    obtain ⟨⟨r', s, hrun, hbuilt⟩, hforwards⟩ := exists_run_write (hstart _) hdistinct hpattern
      hextra hstorable fun e he => he
    exact ⟨⟨r'.files, s, (Definition.build_eq_ok hcreate).2 ⟨hcheck, r', hrun, rfl⟩, hbuilt⟩,
      hforwards⟩

theorem nul_notMem_usual : ∀ source ∈ branches, ∀ target ∈ branches,
    '\x00' ∉ (MergeMessage.usual source target).toList := by
  have hnames : ∀ name ∈ branches, '\x00' ∉ name.toList := by decide
  intro source hsource target htarget
  have hparts : MergeMessage.usual source target =
      "Merge branch '" ++ source ++ "' into '" ++ target ++ "'" := rfl
  simp only [hparts, String.toList_append, List.mem_append, not_or]
  exact ⟨⟨⟨⟨by decide, hnames source hsource⟩, by decide⟩, hnames target htarget⟩, by decide⟩

/-- The flow with its first release masked, in the last seconds that can be written. -/
def maskedFlow : Definition :=
  (write ⟨.scipy, "gitlab", "example.com", none, [], true⟩ .usual
    (Time.Clock.nextMany 0 lastClock).2).1

section

attribute [local instance] Pattern.Engine.builtIn Git.Merger.builtIn Git.Merger.lawful_builtIn

theorem build_maskedFlow : ∃ r u,
    on (create [] "repo" ⟨"Ada", "ada@example.com"⟩) (.new "/work") = (.ok r, u) ∧
      (Collision (r.written (Replay.calls maskedFlow r)) ∨
        ∃ w s, on (maskedFlow.build [] "repo" ⟨"Ada", "ada@example.com"⟩) (.new "/work") =
          (.ok (), w) ∧ Built ["repo"] w s) := by
  obtain ⟨-, -, r, u, hcreate, h⟩ := build_write readsPolicy_builtIn
    ⟨.scipy, "gitlab", "example.com", none, [], true⟩ .usual 0 rfl rfl nul_notMem_usual
    parse_lastClock year_lastClock accepted_ada
    FileTree.wellFormed_work (FileTree.slashless_new _) FileTree.named_nil on_createDirectory_new
    empty_repo
  exact ⟨r, u, hcreate, h.imp_right And.left⟩

end

end Scenario.GitFlow

end ReleaseHistory
