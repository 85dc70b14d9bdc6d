import ReleaseHistory.Proofs.Definition.Alike
import ReleaseHistory.Proofs.Replay.Sketched

/-!
# Replays that a sketch follows

Where a sketch gets through some actions, so does a repository that it is of, as long as all texts
can be stored. What a sketch makes of an action depends on nothing that actions which are alike
differ in.
-/

namespace ReleaseHistory

open Operation Git Repository Traced
open FileTree (Named Plain)
open Sketch (full)

/-! ### What can be stored -/

/-- An identity that can sign at any time. -/
def Git.Identity.Accepted (i : Identity) : Prop :=
  ∀ t, ∃ s, Signature.make i t = some s ∧ s.isStorable = true

theorem nul_notMem_of_accepted {i : Identity} (h : i.Accepted) :
    '\x00' ∉ i.name.toList ∧ '\x00' ∉ i.email.toList := by
  obtain ⟨s, hmake, -⟩ := h ⟨0, 0, 0⟩
  rw [Signature.make, Option.ite_none_right_eq_some, Bool.and_eq_true] at hmake
  obtain ⟨⟨hname, hemail⟩, -⟩ := hmake
  exact ⟨Signature.notMem_of_isUsable hname (.inr (.inr rfl)),
    Signature.notMem_of_isUsable hemail (.inr (.inr rfl))⟩

theorem accepted_ada : Git.Identity.Accepted ⟨"Ada", "ada@example.com"⟩ := by
  intro t
  have hlines : (!"Ada".toList.contains '\n' && !"ada@example.com".toList.contains '\n') = true := by
    decide
  refine ⟨⟨"Ada", "ada@example.com", t.seconds, t.offset / 60⟩, ?_, hlines⟩
  have hname : Signature.trim "Ada" = "Ada" := by decide
  have hemail : Signature.trim "ada@example.com" = "ada@example.com" := by decide
  rw [Signature.make, if_pos (by decide), hname, hemail]

theorem empty_repo : FileTree.Empty ["repo"] ⟨"/work", [(["repo"], .directory)]⟩ where
  directory := rfl
  vacant := by
    intro w hw
    cases w with
    | nil => exact absurd rfl hw
    | cons part parts => rfl
  outside := by
    intro k s _ hs
    have hmem := FileTree.mem_entries_of_own? ((FileTree.own?_eq_store_iff rfl).2 hs)
    cases List.mem_singleton.1 hmem

namespace Replay

/-- An identity signs at a time. -/
def Signs (i : Identity) (time : String) : Prop :=
  ∃ signature, signatureAt i time = .ok signature ∧ signature.isStorable = true

theorem signs_of_accepted {i : Identity} {time : String} (h : i.Accepted) {t : Time.Timestamp}
    (ht : Time.Timestamp.parse time = .ok t) : Signs i time := by
  obtain ⟨s, hmake, hstorable⟩ := h t
  refine ⟨s, ?_, hstorable⟩
  rw [signatureAt_of_parse ht, hmake]

/-- The message and the time of a commit can be stored. -/
def Writable (i : Identity) (c : Commit) : Prop := Signs i c.datetime ∧ '\x00' ∉ c.message.toList

/-- Changelogs have files of their own. -/
def Apart (u : ChangelogUpdate) : Prop := ∀ f ∈ u.files, Plain f.path ∧ f.path ≠ FileTree.storeName

/-- All texts of an action can be stored. -/
def Storable (i : Identity) : Action → Prop
  | .commits cs => ∀ c ∈ cs, Writable i c
  | .merge m => ∀ c ∈ m.commit, Writable i c
  | .release _ time first => Signs i time ∧ ∀ a ∈ first, ∃ u, a = .changelogs u ∧ Apart u
  | .changelogs u => Apart u
  | .configure _ => True
  | .checkout _ => True

end Replay

/-! ### Sketches of actions -/

namespace Sketch

variable {f : TagFormat} {k : Sketch}

theorem merge_congr {m n : Merge} (hbranch : m.branch = n.branch)
    (hforward : m.fastForward = n.fastForward) (hcommit : m.commit.isSome = n.commit.isSome) :
    k.merge m = k.merge n := by
  obtain ⟨branch, fastForward, commit⟩ := m
  obtain ⟨branch', fastForward', commit'⟩ := n
  cases hbranch
  cases hforward
  cases commit with
  | none =>
    cases commit' with
    | none => rfl
    | some c => cases hcommit
  | some c =>
    cases commit' with
    | none => cases hcommit
    | some c' => cases fastForward <;> rfl

theorem act_congr {a b : Action} (h : Definition.Alike a b) : k.act f a = k.act f b := by
  cases h with
  | configure _ => rfl
  | checkout c => rfl
  | merge hbranch hforward hcommit => exact merge_congr hbranch hforward hcommit
  | commits hlength => rw [act, act, hlength]
  | release version time time' first => rfl
  | changelogs u u' => rfl

theorem run_congr {as bs : List Action} (h : List.Forall₂ Definition.Alike as bs) :
    k.run f as = k.run f bs := by
  induction h generalizing k with
  | nil => rfl
  | cons hab _ ih =>
    rw [run, run, act_congr hab]
    exact congrArg _ (funext fun _ => ih)

theorem run_append (as bs : List Action) :
    k.run f (as ++ bs) = (k.run f as).bind fun k => k.run f bs := by
  induction as generalizing k with
  | nil => rfl
  | cons a as ih =>
    rw [List.cons_append, run, run, Option.bind_assoc]
    exact congrArg _ (funext fun _ => ih)

end Sketch

/-! ### Actions -/

/-- A branch is ahead of the one that is checked out, and to merge it makes no conflict. -/
def Repository.Forwards [Git.Merger] (r : Repository) (s : Store) (branch : String) : Prop :=
  ∃ current ours theirs, currentOf s = .ok current ∧ tipOf s current = .ok ours ∧
    tipOf s branch = .ok theirs ∧ s.history.Ancestor ours theirs ∧ ours ≠ theirs ∧
      (r.merged s ours theirs).conflicts = []

namespace Sketched

variable {start r : Repository} {objects : List Encoded} {k k' : Sketch} {s : Store}
  {time version : String} {settings : Replay.Settings}

/-- A repository that is made in an empty directory is one that nothing has been done in. -/
theorem exists_create {t v : FileTree} {base root : Location} {path : String} {i : Identity}
    (ht : t.WellFormed) (hslashless : t.Slashless) (hbase : Named base)
    (hname : '\x00' ∉ i.name.toList) (hemail : '\x00' ∉ i.email.toList)
    (hdirectory : on (FileTree.createDirectory base path) t = (.ok root, v))
    (hempty : FileTree.Empty root v) :
    ∃ r u, on (create base path i) t = (.ok r, u) ∧ r.root = root ∧ r.identity = i ∧
      ∀ objects, Sketched r objects .start (.new mainBranch) r := by
  have hwell := (FileTree.grown_createDirectory ht hdirectory).wellFormed
  have hfree := hempty.vacant [FileTree.storeName] (List.cons_ne_nil _ _)
  have hcreate : on (create base path i) t =
      (.ok ⟨v.put (storeLocation root) (.store (.new mainBranch)), root, i⟩,
        v.put (storeLocation root) (.store (.new mainBranch))) := by
    rw [on_create, hdirectory]
    dsimp only
    rw [storeLocation, hfree]
    simp [opened, hname, hemail]
  refine ⟨_, _, hcreate, rfl, rfl, fun objects => ?_⟩
  exact
    { intact := intact_create hslashless hbase hcreate (store?_withStore ⟨v, root, i⟩ _) objects
      tidy := (hempty.tidy hwell).put (.inl rfl)
      flat := fun _ _ hmem => absurd hmem List.not_mem_nil
      coherent := fun _ => Snapshot.coherent_nil
      index := fun _ hmem => absurd hmem List.not_mem_nil
      head := rfl
      branches := fun key => by simp [Store.new, Sketch.start]
      plain := fun b hb => by
        rw [List.mem_singleton.1 hb]
        decide
      links := fun _ hmem => absurd hmem List.not_mem_nil
      tags := rfl }

theorem exists_configure [Git.Merger] (h : Sketched start objects k s r) {c : Configuration}
    {f : TagFormat} {text : String} (hf : TagFormat.ofOption c.tagPattern = .ok f)
    (htext : ReleaseDocument.text c f = .ok text) :
    ∃ r', on (Replay.configure c) r = (.ok ⟨f, c.maskInitialRelease⟩, r') ∧
      Sketched start objects k s r' := by
  obtain ⟨r', hon, hready⟩ := h.ready.exists_configure hf htext
  obtain ⟨hintact, -⟩ := h.intact.configure (h.keepsOut plain_documentFile.1 plain_documentFile.2)
    (h.keepsOut plain_ignoreFile.1 plain_ignoreFile.2) hon
  exact ⟨r', hon, { h with intact := hintact, tidy := hready.tidy }⟩

theorem exists_changelogs [Git.Merger] (h : Sketched start objects k s r)
    (settings : Replay.Settings) (version : String) {u : ChangelogUpdate} (hu : Replay.Apart u) :
    ∃ r', on (Replay.changelogs settings version u.files) r = (.ok (), r') ∧
      Sketched start objects k s r' := by
  obtain ⟨r', hon, hready⟩ := h.ready.exists_changelogs hu
  have hpaths : ∀ f ∈ u.files, start.KeepsOut f.path :=
    fun f hf => h.keepsOut (hu f hf).1 (hu f hf).2
  exact ⟨r', hon, { h with intact := h.intact.changelogs hpaths hon, tidy := hready.tidy }⟩

theorem exists_actAll_changelogs [Git.Merger] (h : Sketched start objects k s r)
    (settings : Replay.Settings) {first : List Action}
    (hfirst : ∀ a ∈ first, ∃ u, a = .changelogs u ∧ Replay.Apart u) :
    ∃ r', on (Replay.actAll settings first) r = (.ok settings, r') ∧
      Sketched start objects k s r' := by
  induction first generalizing r with
  | nil => exact ⟨r, rfl, h⟩
  | cons a first ih =>
    obtain ⟨⟨u, rfl, hu⟩, hrest⟩ := List.forall_mem_cons.1 hfirst
    obtain ⟨r₁, hon, h₁⟩ := h.exists_changelogs settings u.version hu
    obtain ⟨r₂, hlast, h₂⟩ := ih h₁ hrest
    refine ⟨r₂, ?_, h₂⟩
    simp only [Replay.actAll, Replay.act, on_bind, hon, on_pure]
    exact hlast

theorem exists_commits [Git.Merger] (h : Sketched start objects k s r)
    (hdistinct : Distinct objects) {cs : List Commit} (hk : Sketch.commits cs.length k = some k')
    (hcs : ∀ c ∈ cs, Replay.Writable start.identity c)
    (hoffers : Offers objects (Replay.commits cs) r) :
    ∃ t r', on (Replay.commits cs) r = (.ok (), r') ∧ Sketched start objects k' t r' := by
  induction cs generalizing k s r with
  | nil =>
    cases hk
    exact ⟨s, r, rfl, h⟩
  | cons c cs ih =>
    obtain ⟨⟨⟨signature, hsignature, hstorable⟩, hmessage⟩, hrest⟩ := List.forall_mem_cons.1 hcs
    obtain ⟨k₁, hk₁, hk⟩ := Option.bind_eq_some_iff.1 hk
    obtain ⟨text, hadd⟩ := h.ready.exists_addChange c.message
    have h₁ := h.withFile plain_changesFile.1 plain_changesFile.2 text
    obtain ⟨hoffered, hlater⟩ := hoffers.commits_cons hadd
    obtain ⟨id, s₂, hcommit, h₂, -⟩ :=
      h₁.exists_commit hdistinct hk₁ hsignature hstorable hmessage hoffered
    have hcommit' : on (WorkTree.commit c.message c.datetime) (r.withFile Replay.changesFile text) =
      (.ok id, (r.withFile Replay.changesFile text).withStore s₂) := hcommit
    obtain ⟨t, r', hon, h'⟩ := ih h₂ hk hrest (hlater _ _ hcommit')
    refine ⟨t, r', ?_, h'⟩
    rw [Replay.commits, on_bind_of_ok hadd, on_bind_of_ok hcommit', hon]

/-- The file with the version of a release stays as it is when the release is stored. -/
theorem own?_versionFile (r : Repository) (version : String) (t : Store) :
    ((r.withFile Replay.versionFile (version ++ "\n")).withStore t).files.own?
      (r.root ++ [Replay.versionFile]) = some (.text (version ++ "\n")) := by
  have hother : r.root ++ [Replay.versionFile] ≠ storeLocation r.root := by
    rw [storeLocation, Ne, List.append_cancel_left_eq, List.singleton_inj]
    exact plain_versionFile.2
  rw [withStore]
  refine FileTree.own?_put.trans ((if_neg hother).trans ?_)
  exact FileTree.own?_put.trans (if_pos rfl)

theorem exists_publish [Git.Merger] (h : Sketched start objects k s r)
    (hdistinct : Distinct objects) (hversion : '\x00' ∉ version.toList)
    (hk : ((k.commit []).bind fun k => k.tag (settings.tagFormat.name version)) = some k')
    (hsigns : Replay.Signs start.identity time)
    (hoffers : Offers objects (Replay.publish settings version time) r) :
    ∃ t r', on (Replay.publish settings version time) r = (.ok (), r') ∧
      Sketched start objects k' t r' ∧
        r'.files.own? (start.root ++ [Replay.versionFile]) = some (.text (version ++ "\n")) := by
  obtain ⟨signature, hsignature, hstorable⟩ := hsigns
  obtain ⟨k₁, hk₁, htagged⟩ := Option.bind_eq_some_iff.1 hk
  have hmessage := nul_notMem_releaseMessage hversion
  have hwrite := h.ready.on_writeText plain_versionFile.1 plain_versionFile.2 (version ++ "\n")
  have h₁ := h.withFile plain_versionFile.1 plain_versionFile.2 (version ++ "\n")
  obtain ⟨id, s₂, hcommit, h₂, htip⟩ :=
    h₁.exists_commit hdistinct hk₁ hsignature hstorable hmessage (hoffers.publish hwrite)
  rw [← Sketch.current_of_commit hk₁] at htip
  obtain ⟨t, htag, h₃⟩ := h₂.exists_tag htagged hsignature hstorable htip
  rw [withStore_withStore] at htag h₃
  refine ⟨t, _, ?_, h₃, ?_⟩
  · have hcommit' : on (WorkTree.commit (Replay.releaseMessage version) time)
        (r.withFile Replay.versionFile (version ++ "\n")) = _ := hcommit
    rw [Replay.publish, on_bind_of_ok hwrite, on_bind_of_ok hcommit']
    exact htag
  · rw [← h.intact.root]
    exact own?_versionFile r version t

theorem exists_checkoutTo [Git.Merger] {c : Checkout} (h : Sketched start objects k s r)
    (hk : k.act settings.tagFormat (.checkout c) = some k') :
    ∃ t r', on (Replay.checkout c) r = (.ok (), r') ∧ Sketched start objects k' t r' := by
  cases c with
  | existing branch =>
    rw [Sketch.act, Sketch.checkout, Option.ite_none_right_eq_some] at hk
    obtain ⟨hbranch, hk⟩ := hk
    cases hk
    obtain ⟨t, r', hon, h'⟩ := h.exists_checkout hbranch
    exact ⟨t, r', hon, h'⟩
  | create name base =>
    obtain ⟨t, r', hon, h'⟩ := h.exists_createBranch hk
    exact ⟨t, r', hon, h'⟩

theorem exists_merge [Git.Merger] [Git.LawfulMerger] {m : Merge} (h : Sketched start objects k s r)
    (hdistinct : Distinct objects) (hk : k.merge m = some k')
    (hm : ∀ c ∈ m.commit, Replay.Writable start.identity c)
    (hoffers : Offers objects (Replay.merge m) r) :
    ∃ t r', on (Replay.merge m) r = (.ok (), r') ∧ Sketched start objects k' t r' := by
  obtain ⟨branch, fastForward, commit⟩ := m
  rw [Sketch.merge, Option.ite_none_right_eq_some] at hk
  obtain ⟨hlink, hk⟩ := hk
  cases fastForward with
  | true =>
    cases hk
    obtain ⟨t, r', hon, h'⟩ := h.exists_fastForward hlink
    exact ⟨t, r', hon, h'⟩
  | false =>
    cases commit with
    | none => cases hk
    | some c =>
      obtain ⟨⟨signature, hsignature, hstorable⟩, hmessage⟩ := hm c rfl
      have hrecord : Offers objects (record (.merge branch (.withCommit c))
        (Repository.merge branch (.withCommit c))) r := hoffers
      obtain ⟨t, r', hon, h'⟩ := h.exists_mergeWithCommit hdistinct hlink hk hsignature hstorable
        hmessage (offers_record.1 hrecord)
      exact ⟨t, r', hon, h'⟩

/-- A release is written and published, and its version stands in the file for it. -/
theorem exists_release [Git.Merger] {first : List Action} (h : Sketched start objects k s r)
    (hdistinct : Distinct objects)
    (hk : k.act settings.tagFormat (.release version time first) = some k')
    (ha : Replay.Storable start.identity (.release version time first))
    (hoffers : Offers objects (Replay.act settings (.release version time first)) r) :
    ∃ t r', on (Replay.act settings (.release version time first)) r = (.ok settings, r') ∧
      Sketched start objects k' t r' ∧
        r'.files.own? (start.root ++ [Replay.versionFile]) = some (.text (version ++ "\n")) := by
  rw [Sketch.act, Option.ite_none_left_eq_some] at hk
  obtain ⟨hversion, hk⟩ := hk
  obtain ⟨hsigns, hfirst⟩ := ha
  obtain ⟨r₁, hon₁, h₁⟩ := h.exists_actAll_changelogs settings hfirst
  obtain ⟨t, r', hon, h', htext⟩ :=
    h₁.exists_publish hdistinct hversion hk hsigns (hoffers.ofRelease hon₁)
  refine ⟨t, r', ?_, h', htext⟩
  rw [Replay.act, on_bind_of_ok hon₁, on_bind_of_ok hon, on_pure]

theorem exists_act [Git.Merger] [Git.LawfulMerger] {a : Action} (h : Sketched start objects k s r)
    (hdistinct : Distinct objects) (hk : k.act settings.tagFormat a = some k')
    (ha : Replay.Storable start.identity a) (hoffers : Offers objects (Replay.act settings a) r) :
    ∃ t r', on (Replay.act settings a) r = (.ok settings, r') ∧ Sketched start objects k' t r' := by
  cases a with
  | configure c => cases hk
  | checkout c =>
    obtain ⟨t, r', hon, h'⟩ := h.exists_checkoutTo hk
    refine ⟨t, r', ?_, h'⟩
    rw [Replay.act, on_bind_of_ok hon, on_pure]
  | merge m =>
    obtain ⟨t, r', hon, h'⟩ := h.exists_merge hdistinct hk ha hoffers.ofMerge
    refine ⟨t, r', ?_, h'⟩
    rw [Replay.act, on_bind_of_ok hon, on_pure]
  | commits cs =>
    obtain ⟨t, r', hon, h'⟩ := h.exists_commits hdistinct hk ha hoffers.ofCommits
    refine ⟨t, r', ?_, h'⟩
    rw [Replay.act, on_bind_of_ok hon, on_pure]
  | release version time first =>
    obtain ⟨t, r', hon, h', -⟩ := h.exists_release hdistinct hk ha hoffers
    exact ⟨t, r', hon, h'⟩
  | changelogs u =>
    cases hk
    obtain ⟨r', hon, h'⟩ := h.exists_changelogs settings u.version ha
    refine ⟨s, r', ?_, h'⟩
    rw [Replay.act, on_bind_of_ok hon, on_pure]

theorem exists_actAll [Git.Merger] [Git.LawfulMerger] {as : List Action}
    (h : Sketched start objects k s r) (hdistinct : Distinct objects)
    (hk : k.run settings.tagFormat as = some k') (has : ∀ a ∈ as, Replay.Storable start.identity a)
    (hoffers : Offers objects (Replay.actAll settings as) r) :
    ∃ t r', on (Replay.actAll settings as) r = (.ok settings, r') ∧
      Sketched start objects k' t r' := by
  induction as generalizing k s r with
  | nil =>
    cases hk
    exact ⟨s, r, rfl, h⟩
  | cons a as ih =>
    obtain ⟨hfirst, hrest⟩ := List.forall_mem_cons.1 has
    obtain ⟨k₁, hk₁, hk⟩ := Option.bind_eq_some_iff.1 hk
    obtain ⟨s₁, r₁, hact, h₁⟩ := h.exists_act hdistinct hk₁ hfirst hoffers.head
    obtain ⟨t, r', hon, h'⟩ := ih h₁ hk hrest (hoffers.tail hact)
    refine ⟨t, r', ?_, h'⟩
    rw [Replay.actAll, on_bind_of_ok hact, hon]

theorem exists_actAll_before [Git.Merger] [Git.LawfulMerger] {before rest : List Action}
    (h : Sketched start objects k s r) (hdistinct : Distinct objects)
    (hk : k.run settings.tagFormat (before ++ rest) = some k')
    (hbefore : ∀ a ∈ before, Replay.Storable start.identity a)
    (hoffers : Offers objects (Replay.actAll settings (before ++ rest)) r) :
    ∃ k₁ t r', on (Replay.actAll settings before) r = (.ok settings, r') ∧
      k₁.run settings.tagFormat rest = some k' ∧ Sketched start objects k₁ t r' ∧
        Offers objects (Replay.actAll settings rest) r' := by
  rw [Sketch.run_append] at hk
  obtain ⟨k₁, hk₁, hk⟩ := Option.bind_eq_some_iff.1 hk
  have hacting := Replay.traces_actAll (σ := Repository) settings before
  have hresting := fun settings => Replay.traces_actAll (σ := Repository) settings rest
  rw [Replay.actAll_append] at hoffers
  obtain ⟨t, r', hon, h'⟩ :=
    h.exists_actAll hdistinct hk₁ hbefore (hoffers.left hacting hresting)
  exact ⟨k₁, t, r', hon, hk, h', hoffers.right hacting hresting hon⟩

theorem forwards_of_merge [Git.Merger] [Git.LawfulMerger] {m : Merge}
    (h : Sketched start objects k s r) (hk : k.merge m = some k') : r.Forwards s m.branch := by
  rw [Sketch.merge, Option.ite_none_right_eq_some] at hk
  obtain ⟨ours, theirs, -, hours, -, htheirs, hancestor, hlt⟩ := h.ahead hk.1
  exact ⟨k.current, ours, theirs, h.current_eq, hours, htheirs, hancestor, Nat.ne_of_lt hlt,
    congrArg Snapshot.Merged.conflicts (h.merged_eq hancestor)⟩

end Sketched

end ReleaseHistory
