import ReleaseHistory.Proofs.ReleaseDocument
import ReleaseHistory.Proofs.Replay.Tags
import ReleaseHistory.Proofs.Version.Reading
import ReleaseHistory.Proofs.WorkTree.Placed

/-!
# The trees of releases

Before a release is committed its changelogs and its version are written, one file after the other.
The tree of the commit holds each of them as it was written last, if staging comes to it: a file that
the rules in force leave out, or that lies outside of the work tree, is written but not committed.
-/

namespace ReleaseHistory

open Operation Git

/-! ### Texts that name no commit -/

theorem isSpace_eq_false_of_isDigit {c : Char} (h : Text.isDigit c = true) : isSpace c = false := by
  simp only [Text.isDigit, Bool.and_eq_true, decide_eq_true_eq, Char.le_def, UInt32.le_iff_toNat_le] at h
  have hlow : 48 ≤ c.toNat := h.1
  have hne : c ≠ ' ' := by
    rintro rfl
    exact absurd hlow (by decide)
  simp [isSpace, hne]
  omega

theorem ofText_version_ne_detached {version : String} {v : Version.Release}
    (h : Version.Release.parse version = .ok v) (hex : String) :
    Head.ofText (version ++ "\n") ≠ .detached hex := by
  obtain ⟨digits, rest, hversion, hdigits⟩ := Version.Release.exists_digits h
  have htext : (version ++ "\n").toList = digits ++ '.' :: (rest ++ ['\n']) := by
    simp [hversion]
  exact Store.ofText_ne_detached htext (fun d hd => isSpace_eq_false_of_isDigit (hdigits d hd))
    (by decide) (by decide) hex

theorem ofText_changelog_ne_detached (format : ChangelogFormat) (found : Option String)
    (title : String) (mask : Bool) (hex : String) :
    Head.ofText (Changelog.update format found title mask) ≠ .detached hex := by
  have hbegins : ∃ c rest, (Changelog.heading format).toList = c :: rest ∧
      Head.isHexDigit c = false ∧ isSpace c = false := by
    cases format with
    | markdown => exact ⟨'#', _, rfl, by decide, by decide⟩
    | restructuredText => exact ⟨'.', _, rfl, by decide, by decide⟩
  obtain ⟨c, rest, hheading, hdigit, hspace⟩ := hbegins
  have htext : ∃ more, (Changelog.update format found title mask).toList = [] ++ c :: more := by
    unfold Changelog.update
    rw [String.toList_append, String.toList_append, hheading]
    exact ⟨_, rfl⟩
  obtain ⟨more, hmore⟩ := htext
  exact Store.ofText_ne_detached hmore (fun _ hd => nomatch hd) hdigit hspace hex

/-! ### What is written for a release -/

namespace Replay

open Repository Traced
open FileTree (Lies)

section Writing

variable {σ : Type} [WorkTree σ] {first : List Action}

def writeRelease (s : Settings) (version : String) (fs : List ChangelogFile) : Operation σ Unit := do
  changelogs s version fs
  WorkTree.writeText versionFile (version ++ "\n")

theorem changelogs_append (s : Settings) (version : String) (fs gs : List ChangelogFile) :
    (changelogs s version (fs ++ gs) : Operation σ Unit) =
      changelogs s version fs >>= fun _ => changelogs s version gs := by
  induction fs with
  | nil => rw [List.nil_append, changelogs, pure_bind]
  | cons f fs ih => simp only [List.cons_append, changelogs, ih, bind_assoc]

theorem actAll_changelogs (s : Settings) {version : String}
    (h : ∀ a ∈ first, ∃ u, a = .changelogs u ∧ u.version = version) :
    (actAll s first : Operation σ Settings) =
      changelogs s version (Definition.changelogFiles first) >>= fun _ => pure s := by
  induction first with
  | nil => rw [actAll, Definition.changelogFiles, changelogs, pure_bind]
  | cons a first ih =>
    obtain ⟨⟨u, rfl, rfl⟩, hrest⟩ := List.forall_mem_cons.1 h
    rw [actAll, act, Definition.changelogFiles, Definition.actionChangelogs, changelogs_append,
      bind_assoc, bind_assoc, ← ih hrest]
    simp only [pure_bind]

end Writing

variable {start r r' : Repository} {settings : Settings} {version text : String}
  {fs gs : List ChangelogFile} {f : ChangelogFile} {way : Location}

theorem changelogs_cons_eq_ok [Git.Merger]
    (h : on (changelogs settings version (f :: fs)) r = (.ok (), r')) :
    ∃ found r₁, on (WorkTree.readText f.path) r = (.ok found, r) ∧
      on (WorkTree.writeText f.path (Changelog.update f.format found
        (settings.tagFormat.name version) settings.maskInitialRelease)) r = (.ok (), r₁) ∧
      on (changelogs settings version fs) r₁ = (.ok (), r') := by
  rw [changelogs, bind_eq_ok] at h
  obtain ⟨found, r₀, hread, h⟩ := h
  obtain rfl := eq_of_readText hread
  rw [bind_eq_ok] at h
  obtain ⟨_, r₁, hwrite, h⟩ := h
  exact ⟨found, r₁, hread, hwrite, h⟩

theorem placed_changelogs [Git.Merger] (hp : Placed start r)
    (h : on (changelogs settings version fs) r = (.ok (), r')) : Placed start r' := by
  induction fs generalizing r with
  | nil =>
    cases h
    exact hp
  | cons f fs ih =>
    obtain ⟨found, r₁, -, hwrite, hrest⟩ := changelogs_cons_eq_ok h
    exact ih (hp.writeText hwrite).2.1 hrest

theorem lies_changelogs [Git.Merger] (hp : Placed start r)
    (h : on (changelogs settings version fs) r = (.ok (), r')) (hlies : Lies r.files start.root way text)
    (hway : way ≠ []) (hout : ¬storeLocation start.root <+: start.root ++ way)
    (helsewhere : ∀ f ∈ fs, ¬start.LeadsTo f.path way) : Lies r'.files start.root way text := by
  induction fs generalizing r with
  | nil =>
    cases h
    exact hlies
  | cons f fs ih =>
    obtain ⟨found, r₁, -, hwrite, hrest⟩ := changelogs_cons_eq_ok h
    obtain ⟨hfirst, hlater⟩ := List.forall_mem_cons.1 helsewhere
    exact ih (hp.writeText hwrite).2.1 hrest (hp.keeps hwrite hlies hway hout hfirst) hlater

/-- What a tree holds of what was written for a release: its version, and each changelog with the text
that was written last, which was made of the text that stood there before. What is left out when the
files are staged is not there. -/
structure Holds [Git.Merger] (start before after : Repository) (s : Store) (settings : Settings)
    (version : String) (fs : List ChangelogFile) (tree : Snapshot) : Prop where
  ofVersion : tree.get? versionFile =
    if after.includes s [versionFile] then some (version ++ "\n") else none
  ofChangelog : ∀ earlier f later way, fs = earlier ++ f :: later → start.LeadsTo f.path way →
    way ≠ [versionFile] → (∀ g ∈ later, ¬start.LeadsTo g.path way) →
      ∃ found r, on (changelogs settings version earlier) before = (.ok (), r) ∧
        on (WorkTree.readText f.path) r = (.ok found, r) ∧
        tree.get? (pathOf way) = if after.includes s way then
          some (Changelog.update f.format found (settings.tagFormat.name version)
            settings.maskInitialRelease) else none

theorem holds_of_writeRelease [Git.Merger] {s : Store} {tree : Snapshot} {v : Version.Release}
    (hp : Placed start r) (hmount : start.files.mount.startsWith "/" = true)
    (hversion : Version.Release.parse version = .ok v)
    (hpaths : ∀ f ∈ fs, start.KeepsOut f.path)
    (h : on (writeRelease settings version fs) r = (.ok (), r')) (hslashless : r'.files.Slashless)
    (htree : r'.stagedFiles s = some tree) : Holds start r r' s settings version fs tree := by
  rw [writeRelease, bind_eq_ok] at h
  obtain ⟨_, r₁, hchangelogs, hwrite⟩ := h
  have hp₁ := placed_changelogs hp hchangelogs
  have hp' := (hp₁.writeText hwrite).2.1
  have hplain := (leadsTo_iff_of_plain hmount plain_versionFile.1).2 rfl
  have hout := hplain.outside (keepsOut_of_plain hmount plain_versionFile.1 plain_versionFile.2)
  have hget : ∀ {way text}, way ≠ [] → Lies r'.files start.root way text →
      tree.get? (pathOf way) = if r'.includes s way then some text else none := by
    intro way text hway hlies
    rw [← hp'.root] at hlies
    exact get?_stagedFiles hslashless htree hway hlies
  refine ⟨?_, ?_⟩
  · exact hget hplain.1 (hp₁.lies hwrite hplain hout (ofText_version_ne_detached hversion))
  · intro earlier f later way hfs hleads hother helsewhere
    rw [hfs, changelogs_append, bind_eq_ok] at hchangelogs
    obtain ⟨_, r₂, hearlier, hlater⟩ := hchangelogs
    obtain ⟨found, r₃, hread, hlast, hafter⟩ := changelogs_cons_eq_ok hlater
    have hp₂ := placed_changelogs hp hearlier
    have hkeepsOut := hleads.outside (hpaths f (by simp [hfs]))
    -- the last write is kept by the writes after it
    have hlies := hp₂.lies hlast hleads hkeepsOut (ofText_changelog_ne_detached _ _ _ _)
    have hlies := lies_changelogs (hp₂.writeText hlast).2.1 hafter hlies hleads.1 hkeepsOut helsewhere
    have hversionFile : ¬start.LeadsTo versionFile way :=
      (leadsTo_iff_of_plain hmount plain_versionFile.1).not.2 hother
    have hlies := hp₁.keeps hwrite hlies hleads.1 hkeepsOut hversionFile
    exact ⟨found, r₂, hearlier, hread, hget hleads.1 hlies⟩

/-! ### The trees of releases -/

variable {s : Store} {objects : List Encoded} {d : Definition} {time : String} {first : List Action}
  {settings' : Settings} {tree : Snapshot}

theorem mem_stagedIn_publish [Git.Merger] (hs : r'.store? = some s)
    (htree : r'.stagedFiles s = some tree)
    (hwrite : on (WorkTree.writeText versionFile (version ++ "\n")) r = (.ok (), r')) :
    tree ∈ r.stagedIn (callsOf (publish settings version time) r) := by
  have hcommit := traces_commit (σ := Repository) (releaseMessage version) time
  have htag := fun _ : String => traces_tag (σ := Repository) (settings.tagFormat.name version)
    (settings.tagFormat.name version) time
  have hcalls : callsOf (WorkTree.commit (releaseMessage version) time : Operation _ String) r' =
      [.commit (releaseMessage version) time] := by
    show callsOf (record _ _) r' = _
    rw [callsOf, on_record]
    rfl
  have hstaged : tree ∈ r'.stagedIn (callsOf (WorkTree.commit (releaseMessage version) time) r') := by
    rw [hcalls]
    simp [stagedIn, stagedFor?, hs, htree]
  rw [publish]
  exact mem_stagedIn_right (mem_stagedIn_left hstaged hcommit htag) (traces_writeText versionFile _)
    (fun _ => hcommit.bind htag) hwrite

/-- What is written for a release is in a tree with the name of that of its commit. -/
theorem Told.exists_tree [Git.Merger] [Pattern.Engine] (h : Told start objects d settings s r)
    (hp : Placed start r)
    (hmount : start.files.mount.startsWith "/" = true) (hdistinct : Distinct objects)
    (hfits : d.Fits (.release version time first))
    (hpaths : ∀ f ∈ Definition.changelogFiles first, start.KeepsOut f.path)
    (hoffers : Offers objects (act settings (.release version time first)) r)
    (hact : on (act settings (.release version time first)) r = (.ok settings', r')) :
    ∃ t tag c after tree, Intact start objects t r' ∧
      Released start.identity d.currentBranch d.tagFormat version time t tag c ∧
      on (writeRelease settings version (Definition.changelogFiles first)) r = (.ok (), after) ∧
      after.store? = some s ∧ c.snapshot.id = tree.id ∧
      tree ∈ r.stagedIn (callsOf (act settings (.release version time first)) r) ∧
      Holds start r after s settings version (Definition.changelogFiles first) tree := by
  have hversion := keepsOut_files hmount versionFile (by simp)
  obtain ⟨t, tag, c, -, -, ht, -, -, hreleased, -, -, -, r₁, after, tree, hchangelogs, hwrite,
    htree, hnamed⟩ := h.exists_released hdistinct hfits hversion hpaths hoffers hact
  obtain ⟨v, -, hparse, -, hfirst, -⟩ := hfits.releases
  have hfiles : ∀ a ∈ first, ∃ u, a = .changelogs u := by
    intro a ha
    obtain ⟨u, hu, -⟩ := hfirst a ha
    exact ⟨u, hu⟩
  have hi := (intact_actAll_changelogs h.intact hfiles hpaths hchangelogs).2.writeText hversion hwrite
  have hrelease : on (writeRelease settings version (Definition.changelogFiles first)) r =
      (.ok (), after) := by
    have hall := hchangelogs
    rw [actAll_changelogs settings hfirst, bind_eq_ok] at hall
    obtain ⟨_, r₀, hall, hpure⟩ := hall
    cases hpure
    rw [writeRelease, on_bind_of_ok hall, hwrite]
  have hmem : tree ∈ r.stagedIn (callsOf (act settings (.release version time first)) r) := by
    have hpublish := fun s' => traces_publish (σ := Repository) s' version time
    rw [act]
    apply mem_stagedIn_right ?_ (traces_actAll settings first)
      (fun s' => (hpublish s').bind fun _ => traces_pure s') hchangelogs
    exact mem_stagedIn_left (mem_stagedIn_publish hi.store? htree hwrite) (hpublish settings)
      fun _ => traces_pure settings
  exact ⟨t, tag, c, after, tree, ht, hreleased, hrelease, hi.store?, hnamed, hmem,
    holds_of_writeRelease hp hmount hparse hpaths hrelease hi.holding.slashless htree⟩

theorem exists_tree_of_actAll [Git.Merger] [Git.LawfulMerger] [Pattern.Engine]
    {before after : Definition} (hstart : Intact start objects (.new mainBranch) start)
    (hp : Placed start start) (hmount : start.files.mount.startsWith "/" = true)
    (hdistinct : Distinct objects)
    (hvalid : Definition.Valid (before ++ .release version time first :: after))
    (hpaths : ∀ f ∈ Definition.changelogFiles (before ++ .release version time first :: after),
      start.KeepsOut f.path)
    (hoffers : Offers objects (actAll .default (before ++ .release version time first :: after)) start)
    (hall : on (actAll .default (before ++ .release version time first :: after)) start =
      (.ok settings', r')) :
    ∃ s tag c settings r₁ r₂ s₂ tree, Intact start objects s r' ∧
      Released start.identity before.currentBranch
        (Definition.tagFormat (before ++ .release version time first :: after)) version time s tag c ∧
      on (actAll .default before) start = (.ok settings, r₁) ∧
      on (writeRelease settings version (Definition.changelogFiles first)) r₁ = (.ok (), r₂) ∧
      r₂.store? = some s₂ ∧ c.snapshot.id = tree.id ∧
      tree ∈ start.stagedIn
        (callsOf (actAll .default (before ++ .release version time first :: after)) start) ∧
      Holds start r₁ r₂ s₂ settings version (Definition.changelogFiles first) tree := by
  have hnames := keepsOut_files hmount
  have hformat := hvalid.tagFormat_eq
  rw [hformat]
  rw [Definition.changelogFiles_append, Definition.changelogFiles, List.forall_mem_append,
    List.forall_mem_append] at hpaths
  obtain ⟨hpathsBefore, hpathsFirst, hpathsAfter⟩ := hpaths
  have htraces := fun s => traces_actAll (σ := Repository) s (.release version time first :: after)
  have htracesBefore := traces_actAll (σ := Repository) .default before
  rw [actAll_append] at hoffers hall
  simp only [actAll_append]
  rw [bind_eq_ok] at hall
  obtain ⟨settings, r₁, hbefore, hrest⟩ := hall
  have hoffersRest := hoffers.right htracesBefore htraces hbefore
  obtain ⟨s₂, htold, -⟩ := told_actAll_keeps (told_nil hstart) hdistinct hvalid.left hnames
    hpathsBefore (hoffers.left htracesBefore htraces) hbefore
  rw [List.nil_append] at htold
  have hconfined := confined_on htracesBefore ⟨fun _ => rfl, hp.stores⟩
  rw [hbefore] at hconfined
  have hplaced : Placed start r₁ :=
    ⟨htold.intact.root, hp.named, htold.intact.holding.mount_eq, hconfined.2⟩
  rw [List.append_cons] at hvalid
  have hfits := (Definition.valid_concat.1 hvalid.left).2
  rw [actAll, bind_eq_ok] at hrest
  obtain ⟨settings₁, r₂, hact, hafter⟩ := hrest
  obtain ⟨t, tag, c, written, tree, ht, hreleased, hwritten, hstore, hnamed, hmem, hholds⟩ :=
    htold.exists_tree hplaced hmount hdistinct hfits hpathsFirst hoffersRest.head hact
  obtain ⟨t', htold', -⟩ :=
    told_release htold hdistinct hfits (hnames _ (by simp)) hpathsFirst hoffersRest.head hact
  obtain rfl : t = t' := Option.some.inj (ht.store?.symm.trans htold'.intact.store?)
  obtain ⟨s, hs, hkept⟩ := told_actAll_keeps htold' hdistinct hvalid hnames hpathsAfter
    (hoffersRest.tail hact) hafter
  refine ⟨s, tag, c, settings, r₁, written, s₂, tree, hs.intact, hreleased.mono hkept, hbefore, hwritten,
    hstore, hnamed, ?_, hholds⟩
  apply mem_stagedIn_right ?_ htracesBefore htraces hbefore
  rw [actAll]
  exact mem_stagedIn_left hmem (traces_act settings _) fun s => traces_actAll s after

end Replay

/-! ### Whole replays -/

open Repository Traced
open FileTree (Named)

/-- A commit has a tree with the name of a different one. -/
def Git.History.Confuses (h : History) (trees : List Snapshot) : Prop :=
  ∃ n c, h.get? n = some c ∧ ∃ tree ∈ trees, tree ≠ c.snapshot ∧ tree.id = c.snapshot.id

/-- A repository that is made where there is no other one has no store but its own below its root. -/
theorem Repository.placed_of_create {t u : FileTree} {base : Location} {path : String} {i : Identity}
    {r : Repository} (ht : t.WellFormed) (hslashless : t.Slashless) (hbase : Named base)
    (hcreate : on (create base path i) t = (.ok r, u)) (hnew : t.get? (storeLocation r.root) = none)
    (hclear : t.StoresIn fun l => ¬r.root <+: l) : Placed r r := by
  have hstore := store?_create ht hcreate hnew
  obtain ⟨v, hdirectory, -, hfiles, hu⟩ := create_eq_ok hcreate
  obtain ⟨-, l, parts, -, hon⟩ := FileTree.createDirectory_eq_ok hdirectory
  have hbefore : t.StoresIn fun l => r.root <+: l → l = storeLocation r.root :=
    fun l s hs hbelow => absurd hbelow (hclear l s hs)
  have hmade := FileTree.preserves_createDirectories l parts t hbefore
  rw [hon] at hmade
  refine ⟨rfl, (intact_create hslashless hbase hcreate hstore []).named, rfl, ?_⟩
  rw [hfiles]
  rcases hu with rfl | rfl
  · exact hmade
  · exact hmade.put fun _ _ _ => rfl

theorem Repository.placed_create {t u : FileTree} {base : Location} {path : String} {i : Identity}
    {r : Repository} (ht : t.WellFormed) (hslashless : t.Slashless) (hbase : Named base)
    (hcreate : on (create base path i) t = (.ok r, u))
    (hnew : ∀ way, t.get? (r.root ++ way) = none) : Placed r r := by
  refine placed_of_create ht hslashless hbase hcreate (hnew [FileTree.storeName]) ?_
  rintro l s hs ⟨way, rfl⟩
  have hown := (FileTree.mem_entries_iff ht.distinct).1 hs
  rw [FileTree.own?_eq_none_of_get? (hnew way)] at hown
  cases hown

/-- A path that leads neither into the store of a repository nor to a file of attributes. -/
structure Repository.Ordinary (r : Repository) (path : String) : Prop where
  keepsOut : r.KeepsOut path
  plain : ∀ way, r.LeadsTo path way → way.getLast? ≠ some attributesFile

/-- What is built without an error in a new directory has for each release a tag on a commit whose
tree holds what was written for the release: the version and, at each destination of a changelog, the
text that was written there last, unless they are left out when the files are staged. No changelog
leads to a file of attributes, with which another text than the written one is stored. This is so
unless two different commits of the replay, or two different trees, have the same name. -/
theorem Definition.trees_of_build [Git.Merger] [Git.LawfulMerger] [Pattern.Engine] {d : Definition}
    {t u v : FileTree} {base : Location}
    {path : String} {i : Identity} {r : Repository} (ht : t.WellFormed) (hslashless : t.Slashless)
    (hbase : Named base) (hcreate : on (create base path i) t = (.ok r, v))
    (hnew : ∀ way, t.get? (r.root ++ way) = none)
    (hpaths : ∀ f ∈ Definition.changelogFiles d, r.Ordinary f.path)
    (hbuild : on (d.build base path i) t = (.ok (), u)) :
    Collision (r.written (Replay.calls d r)) ∨
      ∃ s, storeAt? u r.root = some s ∧ (s.history.Confuses (r.stagedIn (Replay.calls d r)) ∨
        ∀ (before after : Definition) version time first,
          d = before ++ .release version time first :: after →
            ∃ tag c settings r₁ r₂ s₂,
              Replay.Released i before.currentBranch d.tagFormat version time s tag c ∧
              on (Replay.actAll .default before) r = (.ok settings, r₁) ∧
              on (Replay.writeRelease settings version (changelogFiles first)) r₁ = (.ok (), r₂) ∧
              r₂.store? = some s₂ ∧ Replay.Holds r r₁ r₂ s₂ settings version (changelogFiles first)
                c.snapshot) := by
  obtain ⟨hcheck, r', hrun, rfl⟩ := (Definition.build_eq_ok hcreate).1 hbuild
  obtain ⟨p, hp⟩ := Definition.check_eq_ok.1 hcheck
  have hvalid : Definition.Valid d := (Definition.tracks_of_checkFrom hp).1
  have hplaced := placed_create ht hslashless hbase hcreate hnew
  have hmount : r.files.mount.startsWith "/" = true := by
    rw [mount_create ht hcreate]
    exact ht.mount_absolute
  have hnames := keepsOut_files hmount
  have hout : ∀ f ∈ Definition.changelogFiles d, r.KeepsOut f.path := fun f hf => (hpaths f hf).keepsOut
  rcases collision_or_distinct (r.written (Replay.calls d r)) with hcollision | hdistinct
  · exact .inl hcollision
  right
  rw [Replay.run, bind_eq_ok] at hrun
  obtain ⟨settings, r₁, hall, hpure⟩ := hrun
  cases hpure
  have hoffers : Offers (r.written (Replay.calls d r)) (Replay.run d) r := fun e he => he
  have hstart := intact_create hslashless hbase hcreate
    (store?_create ht hcreate (hnew [FileTree.storeName])) (r.written (Replay.calls d r))
  obtain ⟨-, -, hidentity, -⟩ := create_eq_ok hcreate
  obtain ⟨s, hs⟩ := Replay.told_actAll (Replay.told_nil hstart) hdistinct hvalid hnames hout
    hoffers.ofRun hall
  have hstore := hs.intact.store?
  rw [store?, hs.intact.root] at hstore
  refine ⟨s, hstore, ?_⟩
  by_cases hconfuses : s.history.Confuses (r.stagedIn (Replay.calls d r))
  · exact .inl hconfuses
  right
  intro before after version time first hd
  subst hd
  obtain ⟨s', tag, c, settings, r₁, r₂, s₂, tree, hs', hreleased, hbefore, hwritten, hstore₂, hnamed,
    hmem, hholds⟩ := Replay.exists_tree_of_actAll hstart hplaced hmount hdistinct hvalid hout
      hoffers.ofRun hall
  obtain rfl : s = s' := Option.some.inj (hs.intact.store?.symm.trans hs'.store?)
  have hsame : tree = c.snapshot := by
    by_contra hne
    refine hconfuses ⟨tag.target, c, hreleased.target, tree, ?_, hne, hnamed.symm⟩
    rw [Replay.calls, Replay.run]
    exact mem_stagedIn_left hmem (Replay.traces_actAll .default _) fun _ => traces_pure ()
  rw [hsame] at hholds
  rw [hidentity] at hreleased
  exact ⟨tag, c, settings, r₁, r₂, s₂, hreleased, hbefore, hwritten, hstore₂, hholds⟩

/-! ### A release that is not committed as a whole -/

open FileTree (Plain)

namespace Definition

/-- A repository is configured, and its rules are made to leave out the version. -/
def sifting : Definition :=
  [.configure ⟨.angular, "github", "github.com", none, false, .default, []⟩,
    .changelogs ⟨"1\nVERSION", [⟨Replay.ignoreFile, .markdown⟩]⟩,
    .commits [⟨"start", "2024-01-01T00:00:00+00:00", false⟩]]

/-- The changelogs of a release, one of which is a log. -/
def sifted : List ChangelogFile := [⟨"release.log", .markdown⟩, ⟨"CHANGELOG.md", .markdown⟩]

/-- A release of which neither the version nor the log is committed. -/
def withheld : Definition :=
  sifting ++ [.release "1.0.0" "2024-01-01T00:00:01+00:00" [.changelogs ⟨"1.0.0", sifted⟩]]

section

attribute [local instance] Pattern.Engine.builtIn

theorem check_withheld : withheld.check = .ok () := by decide +kernel

end

end Definition

namespace Repository

variable {s : Store} {r : Repository} {name text document changes : String} {index : Snapshot}

theorem plain_logFile : Plain "release.log" ∧ "release.log" ≠ FileTree.storeName := by decide

theorem plain_changelogFile : Plain "CHANGELOG.md" ∧ "CHANGELOG.md" ≠ FileTree.storeName := by decide

def siftingRules : String :=
  Changelog.update .markdown (some Replay.ignoreText) (TagFormat.default.name "1\nVERSION") false

theorem verdict_siftingRules :
    (IgnoreRule.verdict [IgnoreRule.ofText "" siftingRules, []] "VERSION" false).getD false = true ∧
      (IgnoreRule.verdict [IgnoreRule.ofText "" siftingRules, []] "release.log" false).getD false =
        true ∧
      (IgnoreRule.verdict [IgnoreRule.ofText "" siftingRules, []] "CHANGELOG.md" false).getD false =
        false := by
  decide +kernel

/-- A new repository with settings, rules and changes. -/
def sifting (document changes : String) : Repository :=
  (((fresh.withFile Replay.documentFile document).withFile Replay.ignoreFile
    Replay.ignoreText).withFile Replay.ignoreFile siftingRules).withFile Replay.changesFile changes

theorem rulesAt_sifting (document changes : String) :
    rulesAt (sifting document changes).files ["repo"]
      [ownRules (sifting document changes).files ["repo"]] [] =
        [IgnoreRule.ofText "" siftingRules, []] := rfl

section

attribute [local instance] Git.Merger.builtIn

theorem exists_sifting : ∃ document changes s,
    on (Replay.actAll .default Definition.sifting) fresh =
      (.ok .default, (sifting document changes).withStore s) ∧
      Ready s ((sifting document changes).withStore s) ∧ s.head = .branch "refs/heads/main" ∧
      s.branches.map (·.1) = ["refs/heads/main"] ∧ s.tags = [] ∧
      s.index.get? "VERSION" = none ∧ s.index.get? "release.log" = none ∧
      ∀ n c, s.history.get? n = some c → c.snapshot = s.index := by
  obtain ⟨document, hdocument⟩ : ∃ text, ReleaseDocument.text
      ⟨.angular, "github", "github.com", none, false, .default, []⟩ .default = .ok text :=
    ReleaseDocument.exists_text.2 fun entry hentry => nomatch hentry
  have hconfigure := ready_fresh.on_configure
    (c := ⟨.angular, "github", "github.com", none, false, .default, []⟩) rfl hdocument
  have hconfigured := (ready_fresh.withFile plain_documentFile.1 plain_documentFile.2 document).withFile
    plain_ignoreFile.1 plain_ignoreFile.2 Replay.ignoreText
  have hrules : ((fresh.withFile Replay.documentFile document).withFile Replay.ignoreFile
      Replay.ignoreText).files.own? ["repo", Replay.ignoreFile] = some (.text Replay.ignoreText) :=
    FileTree.own?_put.trans (if_pos rfl)
  have hread := hconfigured.on_readText plain_ignoreFile.1 hrules
  have hwrite := hconfigured.on_writeText plain_ignoreFile.1 plain_ignoreFile.2 siftingRules
  have hchangelogs : on (Replay.changelogs ⟨.default, false⟩ "1\nVERSION"
      [⟨Replay.ignoreFile, .markdown⟩]) ((fresh.withFile Replay.documentFile document).withFile
        Replay.ignoreFile Replay.ignoreText) = (.ok (), ((fresh.withFile Replay.documentFile
          document).withFile Replay.ignoreFile Replay.ignoreText).withFile Replay.ignoreFile
            siftingRules) :=
    (on_bind_of_ok hread).trans (on_bind_of_ok hwrite)
  have hruled := hconfigured.withFile plain_ignoreFile.1 plain_ignoreFile.2 siftingRules
  have hsignature : signatureAt fresh.identity "2024-01-01T00:00:00+00:00" =
    .ok ⟨"Ada", "ada@example.com", 1704067200, 0⟩ := rfl
  have hmessage : '\x00' ∉ "start".toList := by decide
  obtain ⟨changes, s, hcommits, hready, hhead, hbranches, htags, hindex, hhistory⟩ :=
    hruled.exists_firstCommit false hsignature rfl hmessage
  have hstaged : (sifting document changes).stagedFiles (.new mainBranch) = some s.index := hindex
  have hslashless : (sifting document changes).files.Slashless :=
    (hruled.withFile plain_changesFile.1 plain_changesFile.2 changes).slashless
  have hleft : ∀ name, Plain name →
      (IgnoreRule.verdict [IgnoreRule.ofText "" siftingRules, []] name false).getD false = true →
        s.index.get? name = none := by
    intro name hname hverdict
    apply get?_stagedFiles_name hslashless hstaged hname
    rw [includes_name (rulesAt_sifting document changes), hverdict]
    exact Bool.and_false _
  refine ⟨document, changes, s, ?_, hready, hhead, hbranches, htags,
    hleft "VERSION" (by decide) verdict_siftingRules.1,
    hleft "release.log" (by decide) verdict_siftingRules.2.1, hhistory⟩
  simp only [Definition.sifting, Replay.actAll, Replay.act, on_bind, hconfigure, hchangelogs, hcommits,
    on_pure]
  rfl

end

theorem file?_exclude (hbranches : s.branches.map (·.1) = ["refs/heads/main"]) (htags : s.tags = []) :
    s.file? "info/exclude" = none := by
  have hnone : s.branches.lookup "info/exclude" = none := by
    rw [List.lookup_eq_none_iff]
    intro entry hentry
    have hkey : entry.1 ∈ s.branches.map (·.1) := List.mem_map_of_mem hentry
    rw [hbranches, List.mem_singleton] at hkey
    rw [hkey]
    decide
  rw [Store.file?, if_neg (by decide), hnone, htags]
  rfl

def withheld (r : Repository) (log changelog : String) : Repository :=
  ((r.withFile "release.log" log).withFile "CHANGELOG.md" changelog).withFile Replay.versionFile
    ("1.0.0" ++ "\n")

theorem rulesAt_withheld (document changes log changelog : String)
    (hfile : s.file? "info/exclude" = none) :
    rulesAt (withheld ((sifting document changes).withStore s) log changelog).files ["repo"]
      [ownRules (withheld ((sifting document changes).withStore s) log changelog).files ["repo"]] [] =
        [IgnoreRule.ofText "" siftingRules, []] := by
  have hget : (withheld ((sifting document changes).withStore s) log changelog).files.get?
      (storeLocation ["repo"] ++ ["info", "exclude"]) = (s.file? "info/exclude").map .text := rfl
  have hown : ownRules (withheld ((sifting document changes).withStore s) log changelog).files
      ["repo"] = [] := by
    rw [ownRules, hget, hfile]
    rfl
  rw [hown]
  rfl

section

attribute [local instance] Git.Merger.builtIn

/-- The files of the release are written, and only the changelog is held by its commit. -/
theorem exists_written : ∃ r log changelog s,
    on (Replay.actAll .default Definition.sifting) fresh = (.ok .default, r) ∧ Ready s r ∧
      on (Replay.changelogs .default "1.0.0" Definition.sifted) r =
        (.ok (), (r.withFile "release.log" log).withFile "CHANGELOG.md" changelog) ∧
      r.root = ["repo"] ∧ r.identity = fresh.identity ∧ s.head = .branch "refs/heads/main" ∧
      s.branches.map (·.1) = ["refs/heads/main"] ∧ s.tags = [] ∧
      (withheld r log changelog).includes s ["VERSION"] = false ∧
      (withheld r log changelog).includes s ["release.log"] = false ∧
      (withheld r log changelog).includes s ["CHANGELOG.md"] = true ∧
      ∀ n c, s.history.get? n = some c →
        c.snapshot.get? "VERSION" = none ∧ c.snapshot.get? "release.log" = none := by
  obtain ⟨document, changes, s, hsifting, hready, hhead, hbranches, htags, hversion, hlog, hhistory⟩ :=
    exists_sifting
  have hchangelogs : ∃ log changelog, on (Replay.changelogs .default "1.0.0" Definition.sifted)
      ((sifting document changes).withStore s) = (.ok (), (((sifting document changes).withStore
        s).withFile "release.log" log).withFile "CHANGELOG.md" changelog) := by
    obtain ⟨log, hlog⟩ := hready.exists_changelog ⟨"release.log", .markdown⟩ plain_logFile.1
      plain_logFile.2 [⟨"CHANGELOG.md", .markdown⟩]
    have hlogged := hready.withFile plain_logFile.1 plain_logFile.2 log
    obtain ⟨changelog, hchangelog⟩ := hlogged.exists_changelog ⟨"CHANGELOG.md", .markdown⟩
      plain_changelogFile.1 plain_changelogFile.2 []
    exact ⟨log, changelog, hlog.trans hchangelog⟩
  obtain ⟨log, changelog, hchangelogs⟩ := hchangelogs
  obtain ⟨hignoreVersion, hignoreLog, hkeep⟩ := verdict_siftingRules
  have hrules := rulesAt_withheld document changes log changelog (file?_exclude hbranches htags)
  refine ⟨_, log, changelog, s, hsifting, hready, hchangelogs, rfl, rfl, hhead, hbranches, htags,
    ?_, ?_, ?_, ?_⟩
  · rw [includes_name hrules, hversion, hignoreVersion]
    rfl
  · rw [includes_name hrules, hlog, hignoreLog]
    rfl
  · rw [includes_name hrules, hkeep, Bool.not_false, Bool.or_true]
    rfl
  · intro n c hget
    rw [hhistory n c hget]
    exact ⟨hversion, hlog⟩

theorem exists_withheld : ∃ r r₂ s r' t,
    on (Replay.actAll .default Definition.sifting) fresh = (.ok .default, r) ∧
      on (Replay.writeRelease .default "1.0.0" Definition.sifted) r = (.ok (), r₂) ∧
      r₂.store? = some s ∧ r₂.includes s ["VERSION"] = false ∧
      r₂.includes s ["release.log"] = false ∧ r₂.includes s ["CHANGELOG.md"] = true ∧
      on (Replay.run Definition.withheld) fresh = (.ok (), r') ∧ storeAt? r'.files ["repo"] = some t ∧
      t.tags.map (·.1) = ["refs/tags/v1.0.0"] ∧ ∀ n c, t.history.get? n = some c →
        c.snapshot.get? "VERSION" = none ∧ c.snapshot.get? "release.log" = none := by
  obtain ⟨r, log, changelog, s, hsifting, hready, hchangelogs, hroot, hidentity, hhead, hbranches, htags,
    hversion, hlog, hchangelog, hhistory⟩ := exists_written
  have hlogged := (hready.withFile plain_logFile.1 plain_logFile.2 log).withFile
    plain_changelogFile.1 plain_changelogFile.2 changelog
  have hwritten := hlogged.withFile plain_versionFile.1 plain_versionFile.2 ("1.0.0" ++ "\n")
  have hsignature : signatureAt r.identity "2024-01-01T00:00:01+00:00" =
      .ok ⟨"Ada", "ada@example.com", 1704067201, 0⟩ := by
    rw [hidentity]
    rfl
  have hroom : Store.hasRoom "refs/heads/main"
      ((s.branches.map (·.1)).filter (· ≠ "refs/heads/main")) = true := by
    rw [hbranches]
    decide
  have hfree : Store.hasRoom "refs/tags/v1.0.0" (s.tags.map (·.1)) = true := by
    rw [htags]
    rfl
  have hkey : RefName.tag? (Replay.Settings.default.tagFormat.name "1.0.0") =
      some "refs/tags/v1.0.0" := by decide
  have hnull : '\x00' ∉ "1.0.0".toList := by decide
  obtain ⟨index, hstaged, -, -, hpublish⟩ := hlogged.exists_publish hhead hroom hsignature rfl
    hnull (by decide) hkey (by decide +kernel) hfree
  obtain ⟨t, ht⟩ : ∃ t, t = releasedStore { s with index := index } "refs/heads/main"
      "refs/tags/v1.0.0" (Replay.Settings.default.tagFormat.name "1.0.0")
        ⟨index, (s.commitOf? "refs/heads/main").toList, ⟨"Ada", "ada@example.com", 1704067201, 0⟩,
          Replay.releaseMessage "1.0.0"⟩ := ⟨_, rfl⟩
  rw [← ht] at hpublish
  refine ⟨r, withheld r log changelog, s, (withheld r log changelog).withStore t, t, hsifting,
    (on_bind_of_ok hchangelogs).trans (hlogged.on_writeText plain_versionFile.1 plain_versionFile.2 _),
    hwritten.store, hversion, hlog, hchangelog, ?_, ?_, ?_, ?_⟩
  · rw [Replay.run, Definition.withheld, Replay.actAll_append]
    simp only [on_bind, hsifting, Replay.actAll, Replay.act, hchangelogs, on_pure, hpublish]
    rfl
  · exact (congrArg (storeAt? _) hroot.symm).trans (store?_withStore ..)
  · rw [ht, releasedStore, htags]
    rfl
  · intro n c hget
    rw [ht, releasedStore, Store.committed, Store.setTip_history] at hget
    rcases History.get?_add_cases hget with hold | rfl
    · exact hhistory n c hold
    · exact ⟨get?_stagedFiles_name hwritten.slashless hstaged plain_versionFile.1 hversion,
        get?_stagedFiles_name hwritten.slashless hstaged plain_logFile.1 hlog⟩

end

end Repository
namespace Definition

section

attribute [local instance] Pattern.Engine.builtIn Git.Merger.builtIn Git.Merger.lawful_builtIn

theorem exists_build_withheld : ∃ r r₂ s u t,
    on (Replay.actAll .default sifting) fresh = (.ok .default, r) ∧
      on (Replay.writeRelease .default "1.0.0" sifted) r = (.ok (), r₂) ∧
      r₂.store? = some s ∧ r₂.includes s ["VERSION"] = false ∧
      r₂.includes s ["release.log"] = false ∧ r₂.includes s ["CHANGELOG.md"] = true ∧
      on (withheld.build [] "repo" ⟨"Ada", "ada@example.com"⟩) (.new "/work") = (.ok (), u) ∧
      storeAt? u ["repo"] = some t ∧ t.tags.map (·.1) = ["refs/tags/v1.0.0"] ∧
      ∀ n c, t.history.get? n = some c →
        c.snapshot.get? "VERSION" = none ∧ c.snapshot.get? "release.log" = none := by
  obtain ⟨r, r₂, s, r', t, hsifting, hwritten, hstore, hversion, hlog, hchangelog, hrun, hbuilt⟩ :=
    exists_withheld
  exact ⟨r, r₂, s, r'.files, t, hsifting, hwritten, hstore, hversion, hlog, hchangelog,
    (build_eq_ok on_create_fresh).2 ⟨check_withheld, r', hrun, rfl⟩, hbuilt⟩

/-- The version and the log are written for the release, but no commit holds them. -/
theorem trees_withheld : ∃ u s, withheld.check = .ok () ∧
    on (withheld.build [] "repo" ⟨"Ada", "ada@example.com"⟩) (.new "/work") = (.ok (), u) ∧
      storeAt? u ["repo"] = some s ∧ s.tags.map (·.1) = ["refs/tags/v1.0.0"] ∧
        ∀ n c, s.history.get? n = some c →
          c.snapshot.get? "VERSION" = none ∧ c.snapshot.get? "release.log" = none := by
  obtain ⟨-, -, -, u, s, -, -, -, -, -, -, hbuild, hbuilt⟩ := exists_build_withheld
  exact ⟨u, s, check_withheld, hbuild, hbuilt⟩

/-- The commit of the release holds the changelog, and neither the version nor the log. -/
theorem trees_of_build_withheld : ∃ u,
    on (withheld.build [] "repo" ⟨"Ada", "ada@example.com"⟩) (.new "/work") = (.ok (), u) ∧
      (Collision (fresh.written (Replay.calls withheld fresh)) ∨
        ∃ s, storeAt? u ["repo"] = some s ∧
          (s.history.Confuses (fresh.stagedIn (Replay.calls withheld fresh)) ∨
            ∃ tag c text, Replay.Released ⟨"Ada", "ada@example.com"⟩ "main" .default "1.0.0"
                "2024-01-01T00:00:01+00:00" s tag c ∧
              c.snapshot.get? "CHANGELOG.md" = some text ∧ c.snapshot.get? "VERSION" = none ∧
                c.snapshot.get? "release.log" = none)) := by
  obtain ⟨r, r₂, s, u, -, hsifting, hwritten, hstore, hversion, hlog, hchangelog, hbuild, -⟩ :=
    exists_build_withheld
  have hmount : fresh.files.mount.startsWith "/" = true := FileTree.wellFormed_work.mount_absolute
  have hleads : ∀ name, Plain name → ∀ way, fresh.LeadsTo name way ↔ way = [name] :=
    fun name hname way => leadsTo_iff_of_plain hmount hname
  have hplain : ∀ f ∈ changelogFiles withheld,
      Plain f.path ∧ f.path ≠ FileTree.storeName ∧ f.path ≠ attributesFile := by decide
  have hpaths : ∀ f ∈ changelogFiles withheld, fresh.Ordinary f.path := by
    intro f hf
    obtain ⟨hname, hstore, hattributes⟩ := hplain f hf
    refine ⟨keepsOut_of_plain hmount hname hstore, fun way hway => ?_⟩
    rw [(hleads f.path hname way).1 hway]
    simpa using hattributes
  refine ⟨u, hbuild, ?_⟩
  rcases trees_of_build FileTree.wellFormed_work (FileTree.slashless_new _) FileTree.named_nil
    on_create_fresh (fun _ => rfl) hpaths hbuild with hcollision | ⟨t, ht, hconfuses | hreleases⟩
  · exact .inl hcollision
  · exact .inr ⟨t, ht, .inl hconfuses⟩
  · obtain ⟨tag, c, settings, r', r₂', s', hreleased, hsifting', hwritten', hstore', hholds⟩ :=
      hreleases sifting [] "1.0.0" "2024-01-01T00:00:01+00:00" [.changelogs ⟨"1.0.0", sifted⟩] rfl
    rw [hsifting] at hsifting'
    cases hsifting'
    have hfiles : changelogFiles [.changelogs ⟨"1.0.0", sifted⟩] = sifted := rfl
    rw [hfiles] at hwritten' hholds
    rw [hwritten] at hwritten'
    cases hwritten'
    rw [hstore] at hstore'
    cases hstore'
    have helsewhere : ¬fresh.LeadsTo "CHANGELOG.md" ["release.log"] := by
      rw [hleads "CHANGELOG.md" (by decide)]
      decide
    obtain ⟨before, -, -, -, hlogged⟩ := hholds.ofChangelog [] ⟨"release.log", .markdown⟩
      [⟨"CHANGELOG.md", .markdown⟩] ["release.log"] rfl ((hleads _ (by decide) _).2 rfl) (by decide)
        (by simpa using helsewhere)
    obtain ⟨found, -, -, -, hlisted⟩ := hholds.ofChangelog [⟨"release.log", .markdown⟩]
      ⟨"CHANGELOG.md", .markdown⟩ [] ["CHANGELOG.md"] rfl ((hleads _ (by decide) _).2 rfl)
        (by decide) (by simp)
    have hversioned := hholds.ofVersion
    rw [Replay.versionFile, hversion] at hversioned
    rw [hlog] at hlogged
    rw [hchangelog] at hlisted
    exact .inr ⟨t, ht, .inr ⟨tag, c, _, hreleased, hlisted, hversioned, hlogged⟩⟩

end

end Definition

end ReleaseHistory
