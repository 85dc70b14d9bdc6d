import ReleaseHistory.Proofs.Build
import ReleaseHistory.Proofs.Definition.Releases
import ReleaseHistory.Proofs.Replay.Preservation
import ReleaseHistory.Proofs.Replay.Ready

/-!
# The tags of a replay

Each release of a definition that is replayed leaves a tag on its commit. The tag is made in the
middle of the replay, and nothing that comes after it takes the tag away, moves it or cuts its commit
off from the branch that was released from.
-/

namespace ReleaseHistory

open Operation Git

namespace Replay

open Repository

/-! ### Releases in a store -/

/-- What is left of a release in a store: a tag on the commit of the release, which the branch that
was released from leads to. -/
structure Released (i : Identity) (branch : String) (format : TagFormat) (version time : String)
    (s : Store) (tag : TagObject) (c : CommitObject) : Prop where
  name : tag.name = format.name version
  tagged : ∃ key, RefName.tag? (format.name version) = some key ∧ s.tags.lookup key = some tag
  target : s.history.get? tag.target = some c
  message : c.message = releaseMessage version
  tagger : signatureAt i time = .ok tag.signature
  /-- The signatures are stored alike. -/
  committer : c.signature.text = tag.signature.text
  reachable : ∃ full tip, RefName.branch? branch = some full ∧ s.branches.lookup full = some tip ∧
    s.history.Ancestor tag.target tip

variable {i : Identity} {branch version time : String} {format : TagFormat} {s t : Store}
  {tag : TagObject} {c : CommitObject}

theorem Released.mono (h : Released i branch format version time s tag c) (hst : s.Keeps t) :
    Released i branch format version time t tag c where
  name := h.name
  tagged := by
    obtain ⟨key, hkey, hlookup⟩ := h.tagged
    exact ⟨key, hkey, hst.tags key tag hlookup⟩
  target := hst.history.get? h.target
  message := h.message
  tagger := h.tagger
  committer := h.committer
  reachable := by
    obtain ⟨full, tip, hfull, htip, hancestor⟩ := h.reachable
    obtain ⟨later, hlater, hforward⟩ := hst.branches full tip htip
    exact ⟨full, later, hfull, hlater, (hst.history.ancestor hancestor).trans hforward⟩

/-! ### Replays and their tags -/

/-- A repository after a definition was replayed: its tags are those of the releases, in order, and
all that a release leaves is there. -/
structure Told (start : Repository) (objects : List Encoded) (d : Definition) (settings : Settings)
    (s : Store) (r : Repository) : Prop where
  intact : Intact start objects s r
  format : settings.tagFormat = d.tagFormat
  head : ∃ full, RefName.branch? d.currentBranch = some full ∧ s.head = .branch full
  names : s.tags.reverse.map (·.2.name) = d.versions.map d.tagFormat.name
  references : ∀ t ∈ s.tags, RefName.tag? t.2.name = some t.1
  distinct : (s.tags.map (·.1)).Nodup
  released : ∀ (before after : Definition) version time first,
    d = before ++ .release version time first :: after → ∃ tag c,
      Released start.identity before.currentBranch d.tagFormat version time s tag c

variable {start r r' : Repository} {objects : List Encoded} {d : Definition} {a : Action}
  {settings settings' : Settings}

theorem Told.quiet (h : Told start objects d settings s r) (ht : Intact start objects t r')
    (hst : Proceeds s t) (hconfigurations : Definition.configurations [a] = [])
    (hversions : Definition.versions [a] = [])
    (hhead : ∃ full, RefName.branch? (Definition.currentBranch (d ++ [a])) = some full ∧
      t.head = .branch full) : Told start objects (d ++ [a]) settings t r' := by
  have hformat := Definition.tagFormat_concat (d := d) hconfigurations
  refine ⟨ht, ?_, hhead, ?_, ?_, ?_, ?_⟩
  · rw [hformat]
    exact h.format
  · rw [hst.tags, hformat, Definition.versions_concat, hversions, List.append_nil]
    exact h.names
  · rw [hst.tags]
    exact h.references
  · rw [hst.tags]
    exact h.distinct
  · intro before after version time first hsplit
    rcases Definition.eq_of_concat hsplit with ⟨-, rfl⟩ | ⟨rest, hd⟩
    · cases hversions
    · obtain ⟨tag, c, hreleased⟩ := h.released before rest version time first hd
      rw [hformat]
      exact ⟨tag, c, hreleased.mono hst.keeps⟩

theorem Told.sameBranch (h : Told start objects d settings s r) (hhead : t.head = s.head)
    (ha : ∀ c, a ≠ .checkout c) : ∃ full,
      RefName.branch? (Definition.currentBranch (d ++ [a])) = some full ∧ t.head = .branch full := by
  have hcurrent : Definition.currentBranch (d ++ [a]) = d.currentBranch := by
    rw [Definition.currentBranch_concat]
    cases a with
    | checkout c => exact absurd rfl (ha c)
    | _ => rfl
  rw [hcurrent, hhead]
  exact h.head

theorem told_configure [Pattern.Engine] {c : Configuration} (h : Told start objects d settings s r)
    (hfits : d.Fits (.configure c)) (ht : Intact start objects s r')
    (hformat : TagFormat.ofOption c.tagPattern = .ok settings'.tagFormat) :
    Told start objects (d ++ [.configure c]) settings' s r' := by
  obtain ⟨hconfigurations, hversions⟩ := hfits.quiet_of_configure
  have htags : s.tags = [] := by
    have hnames := h.names
    rw [hversions] at hnames
    simpa using hnames
  refine ⟨ht, ?_, h.sameBranch rfl (fun _ => nofun), ?_, h.references, h.distinct, ?_⟩
  · rw [Definition.tagFormat_configure hconfigurations hformat]
  · rw [htags, Definition.versions_concat, hversions]
    rfl
  · intro before after version time first hsplit
    rcases Definition.eq_of_concat hsplit with ⟨-, hlast⟩ | ⟨rest, hd⟩
    · cases hlast
    · have hmem : version ∈ d.versions := by
        rw [hd, Definition.versions]
        simp
      rw [hversions] at hmem
      cases hmem

/-- What is written before a release leaves the settings and the store as they are. -/
theorem intact_actAll_changelogs [Git.Merger] {first : List Action} (hi : Intact start objects s r)
    (hfirst : ∀ a ∈ first, ∃ u, a = .changelogs u)
    (hpaths : ∀ f ∈ Definition.changelogFiles first, start.KeepsOut f.path)
    (h : on (actAll settings first) r = (.ok settings', r')) :
    settings' = settings ∧ Intact start objects s r' := by
  induction first generalizing r with
  | nil =>
    cases h
    exact ⟨rfl, hi⟩
  | cons a first ih =>
    obtain ⟨⟨u, rfl⟩, hrest⟩ := List.forall_mem_cons.1 hfirst
    obtain ⟨hfiles, hlater⟩ := List.forall_mem_append.1 hpaths
    rw [actAll, bind_eq_ok] at h
    obtain ⟨settings₁, r₁, hact, h⟩ := h
    rw [act, bind_eq_ok] at hact
    obtain ⟨_, r₂, hwrite, hpure⟩ := hact
    cases hpure
    exact ih (hi.changelogs hfiles hwrite) hrest hlater h

theorem Told.exists_released [Git.Merger] [Pattern.Engine] {first : List Action}
    (h : Told start objects d settings s r)
    (hdistinct : Distinct objects) (hfits : d.Fits (.release version time first))
    (hversion : start.KeepsOut versionFile)
    (hpaths : ∀ f ∈ Definition.changelogFiles first, start.KeepsOut f.path)
    (hoffers : Offers objects (act settings (.release version time first)) r)
    (hact : on (act settings (.release version time first)) r = (.ok settings', r')) :
    ∃ t tag c key, settings' = settings ∧ Intact start objects t r' ∧ s.Keeps t ∧ t.head = s.head ∧
      Released start.identity d.currentBranch d.tagFormat version time t tag c ∧
      RefName.tag? tag.name = some key ∧ s.tags.lookup key = none ∧ t.tags = (key, tag) :: s.tags ∧
      ∃ r₁ r₂ tree, on (actAll settings first) r = (.ok settings, r₁) ∧
        on (WorkTree.writeText versionFile (version ++ "\n")) r₁ = (.ok (), r₂) ∧
        r₂.stagedFiles s = some tree ∧ c.snapshot.id = tree.id := by
  have hfirst : ∀ a ∈ first, ∃ u, a = .changelogs u := by
    obtain ⟨-, -, -, -, hbefore, -⟩ := hfits.releases
    intro a ha
    obtain ⟨u, hu, -⟩ := hbefore a ha
    exact ⟨u, hu⟩
  rw [act, bind_eq_ok] at hact
  obtain ⟨settings₁, r₁, hchangelogs, hact⟩ := hact
  rw [bind_eq_ok] at hact
  obtain ⟨_, r₂, hpublish, hpure⟩ := hact
  cases hpure
  obtain ⟨rfl, hi⟩ := intact_actAll_changelogs h.intact hfirst hpaths hchangelogs
  have hpublished := hoffers.ofRelease hchangelogs
  obtain ⟨full, hfull, hhead⟩ := h.head
  obtain ⟨t, n, c, signature, key, ht, hst, hsame, htip, hget, hmessage, hsignature, hstored, hkey,
    hfree, htags, r₂, tree, hwrite, htree, hnamed⟩ :=
    hi.publish hdistinct hversion hhead hpublished hpublish
  rw [h.format] at hkey htags
  have hlookup : t.tags.lookup key =
      some ⟨d.tagFormat.name version, n, signature, d.tagFormat.name version⟩ := by
    rw [htags, List.lookup_cons_self]
  have hreleased : Released start.identity d.currentBranch d.tagFormat version time t
      ⟨d.tagFormat.name version, n, signature, d.tagFormat.name version⟩ c :=
    { name := rfl
      tagged := ⟨key, hkey, hlookup⟩
      target := hget
      message := hmessage
      tagger := hsignature
      committer := hstored
      reachable := ⟨full, n, hfull, htip, .refl⟩ }
  exact ⟨t, _, c, key, rfl, ht, hst, hsame, hreleased, hkey, hfree, htags, r₁, r₂, tree, hchangelogs,
    hwrite, htree, hnamed⟩

theorem told_release [Git.Merger] [Pattern.Engine] {first : List Action}
    (h : Told start objects d settings s r) (hdistinct : Distinct objects)
    (hfits : d.Fits (.release version time first)) (hversion : start.KeepsOut versionFile)
    (hpaths : ∀ f ∈ Definition.changelogFiles first, start.KeepsOut f.path)
    (hoffers : Offers objects (act settings (.release version time first)) r)
    (hact : on (act settings (.release version time first)) r = (.ok settings', r')) :
    ∃ t, Told start objects (d ++ [.release version time first]) settings' t r' ∧ s.Keeps t := by
  obtain ⟨t, tag, c, key, rfl, ht, hst, hsame, hreleased, hkey, hfree, htags, -⟩ :=
    h.exists_released hdistinct hfits hversion hpaths hoffers hact
  have hformat : Definition.tagFormat (d ++ [.release version time first]) = d.tagFormat :=
    Definition.tagFormat_concat rfl
  refine ⟨t, ⟨ht, ?_, h.sameBranch hsame (fun _ => nofun), ?_, ?_, ?_, ?_⟩, hst⟩
  · rw [hformat]
    exact h.format
  · rw [htags, hformat, Definition.versions_concat, List.reverse_cons, List.map_append,
      List.map_append, h.names, List.map_singleton, hreleased.name]
    rfl
  · intro other hother
    rw [htags] at hother
    rcases List.mem_cons.1 hother with rfl | hother
    · exact hkey
    · exact h.references other hother
  · rw [htags, List.map_cons, List.nodup_cons]
    refine ⟨?_, h.distinct⟩
    intro hmem
    obtain ⟨other, hother, rfl⟩ := List.mem_map.1 hmem
    have hnone := List.lookup_eq_none_iff.1 hfree other hother
    simp at hnone
  · intro before after version' time' first' hsplit
    rw [hformat]
    rcases Definition.eq_of_concat hsplit with ⟨rfl, hlast⟩ | ⟨rest, hd⟩
    · cases hlast
      exact ⟨tag, c, hreleased⟩
    · obtain ⟨tag', c', hreleased'⟩ := h.released before rest version' time' first' hd
      exact ⟨tag', c', hreleased'.mono hst⟩

theorem told_act [Git.Merger] [Git.LawfulMerger] [Pattern.Engine]
    (h : Told start objects d settings s r) (hdistinct : Distinct objects)
    (hfits : d.Fits a)
    (hnames : ∀ name ∈ [documentFile, ignoreFile, changesFile, versionFile], start.KeepsOut name)
    (hpaths : ∀ f ∈ Definition.actionChangelogs a, start.KeepsOut f.path)
    (hoffers : Offers objects (act settings a) r)
    (hact : on (act settings a) r = (.ok settings', r')) :
    ∃ t, Told start objects (d ++ [a]) settings' t r' ∧ s.Keeps t := by
  cases a with
  | configure c =>
    obtain ⟨hi, hformat⟩ := h.intact.configure (hnames _ (by simp)) (hnames _ (by simp)) hact
    exact ⟨s, told_configure h hfits hi hformat, .refl⟩
  | checkout c =>
    rw [act, bind_eq_ok] at hact
    obtain ⟨_, r₁, hcheckout, hpure⟩ := hact
    cases hpure
    obtain ⟨t, ht, hst, hhead⟩ := h.intact.checkoutTo hcheckout
    refine ⟨t, h.quiet ht hst rfl rfl ?_, hst.keeps⟩
    rw [Definition.currentBranch_concat]
    exact hhead
  | merge m =>
    rw [act, bind_eq_ok] at hact
    obtain ⟨_, r₁, hmerge, hpure⟩ := hact
    cases hpure
    obtain ⟨full, -, hhead⟩ := h.head
    obtain ⟨t, ht, hst, hsame⟩ := h.intact.merge hdistinct hhead hoffers.ofMerge hmerge
    exact ⟨t, h.quiet ht hst rfl rfl (h.sameBranch hsame fun _ => Action.noConfusion), hst.keeps⟩
  | commits cs =>
    rw [act, bind_eq_ok] at hact
    obtain ⟨_, r₁, hcommits, hpure⟩ := hact
    cases hpure
    obtain ⟨full, -, hhead⟩ := h.head
    obtain ⟨t, ht, hst, hsame⟩ :=
      h.intact.commits hdistinct (hnames _ (by simp)) hhead hoffers.ofCommits hcommits
    exact ⟨t, h.quiet ht hst rfl rfl (h.sameBranch hsame fun _ => Action.noConfusion), hst.keeps⟩
  | release version time first =>
    exact told_release h hdistinct hfits (hnames _ (by simp)) hpaths hoffers hact
  | changelogs u =>
    rw [act, bind_eq_ok] at hact
    obtain ⟨_, r₁, hwrite, hpure⟩ := hact
    cases hpure
    have ht := h.intact.changelogs hpaths hwrite
    exact ⟨s, h.quiet ht .refl rfl rfl (h.sameBranch rfl fun _ => Action.noConfusion), .refl⟩

theorem told_actAll_keeps [Git.Merger] [Git.LawfulMerger] [Pattern.Engine] {as : List Action}
    (h : Told start objects d settings s r)
    (hdistinct : Distinct objects) (hvalid : Definition.Valid (d ++ as))
    (hnames : ∀ name ∈ [documentFile, ignoreFile, changesFile, versionFile], start.KeepsOut name)
    (hpaths : ∀ f ∈ Definition.changelogFiles as, start.KeepsOut f.path)
    (hoffers : Offers objects (actAll settings as) r)
    (hall : on (actAll settings as) r = (.ok settings', r')) :
    ∃ t, Told start objects (d ++ as) settings' t r' ∧ s.Keeps t := by
  induction as generalizing d settings s r with
  | nil =>
    cases hall
    rw [List.append_nil]
    exact ⟨s, h, .refl⟩
  | cons a as ih =>
    rw [actAll, bind_eq_ok] at hall
    obtain ⟨settings₁, r₁, hact, hrest⟩ := hall
    rw [List.append_cons] at hvalid
    have hfits := (Definition.valid_concat.1 hvalid.left).2
    obtain ⟨hfirst, hlater⟩ := List.forall_mem_append.1 hpaths
    obtain ⟨t, ht, hst⟩ := told_act h hdistinct hfits hnames hfirst hoffers.head hact
    obtain ⟨u, hu, htu⟩ := ih ht hvalid hlater (hoffers.tail hact) hrest
    rw [← List.append_cons] at hu
    exact ⟨u, hu, hst.trans htu⟩

theorem told_actAll [Git.Merger] [Git.LawfulMerger] [Pattern.Engine] {as : List Action}
    (h : Told start objects d settings s r) (hdistinct : Distinct objects)
    (hvalid : Definition.Valid (d ++ as))
    (hnames : ∀ name ∈ [documentFile, ignoreFile, changesFile, versionFile], start.KeepsOut name)
    (hpaths : ∀ f ∈ Definition.changelogFiles as, start.KeepsOut f.path)
    (hoffers : Offers objects (actAll settings as) r)
    (hall : on (actAll settings as) r = (.ok settings', r')) :
    ∃ t, Told start objects (d ++ as) settings' t r' :=
  (told_actAll_keeps h hdistinct hvalid hnames hpaths hoffers hall).imp fun _ ht => ht.1

theorem told_nil (hi : Intact start objects (.new mainBranch) start) :
    Told start objects [] .default (.new mainBranch) start where
  intact := hi
  format := rfl
  head := ⟨"refs/heads/main", by decide, rfl⟩
  names := rfl
  references := fun _ htag => nomatch htag
  distinct := List.nodup_nil
  released := by
    intro before after version time first hsplit
    simp at hsplit

end Replay

/-! ### Whole replays -/

open Repository
open FileTree (Named)

/-- What is built without an error has a tag for each release, in order, and no other. Its name is
the format in force filled with the version, and its reference is the one of that name, in which
repeated slashes are single; no two references are the same. The tag marks the commit of the release,
and both are stored with the signature made from the time of the release. At the end the branch that
was released from still leads to the commit. This is so unless two different commits of the replay
have the same name. -/
theorem Definition.tags_of_build [Git.Merger] [Git.LawfulMerger] [Pattern.Engine] {d : Definition}
    {t u v : FileTree} {base : Location}
    {path : String} {i : Identity} {r : Repository} (ht : t.WellFormed) (hslashless : t.Slashless)
    (hbase : Named base) (hcreate : on (create base path i) t = (.ok r, v))
    (hnew : t.get? (storeLocation r.root) = none)
    (hpaths : ∀ f ∈ Definition.changelogFiles d, r.KeepsOut f.path)
    (hbuild : on (d.build base path i) t = (.ok (), u)) :
    Collision (r.written (Replay.calls d r)) ∨
      ∃ s, storeAt? u r.root = some s ∧
        s.tags.reverse.map (·.2.name) = d.versions.map d.tagFormat.name ∧
        (∀ tag ∈ s.tags, RefName.tag? tag.2.name = some tag.1) ∧ (s.tags.map (·.1)).Nodup ∧
        ∀ (before after : Definition) version time first,
          d = before ++ .release version time first :: after → ∃ tag c,
            Replay.Released i before.currentBranch d.tagFormat version time s tag c := by
  obtain ⟨hcheck, r', hrun, rfl⟩ := (Definition.build_eq_ok hcreate).1 hbuild
  obtain ⟨p, hp⟩ := Definition.check_eq_ok.1 hcheck
  have hvalid : Definition.Valid ([] ++ d) := (Definition.tracks_of_checkFrom hp).1
  have hstore := store?_create ht hcreate hnew
  have hmount : r.files.mount.startsWith "/" = true := by
    rw [mount_create ht hcreate]
    exact ht.mount_absolute
  have hnames : ∀ name ∈ [Replay.documentFile, Replay.ignoreFile, Replay.changesFile,
      Replay.versionFile], r.KeepsOut name := by
    have hplain : ∀ name ∈ [Replay.documentFile, Replay.ignoreFile, Replay.changesFile,
        Replay.versionFile], FileTree.Plain name ∧ name ≠ FileTree.storeName := by decide
    intro name hname
    exact keepsOut_of_plain hmount (hplain name hname).1 (hplain name hname).2
  rcases collision_or_distinct (r.written (Replay.calls d r)) with hcollision | hdistinct
  · exact .inl hcollision
  · right
    rw [Replay.run, bind_eq_ok] at hrun
    obtain ⟨settings, r₁, hall, hpure⟩ := hrun
    cases hpure
    have hoffers : Offers (r.written (Replay.calls d r)) (Replay.run d) r := fun e he => he
    have hstart := Replay.told_nil
      (intact_create hslashless hbase hcreate hstore (r.written (Replay.calls d r)))
    obtain ⟨s, hs⟩ :=
      Replay.told_actAll hstart hdistinct hvalid hnames hpaths hoffers.ofRun hall
    rw [List.nil_append] at hs
    have hroot := hs.intact.store?
    rw [store?, hs.intact.root] at hroot
    obtain ⟨-, -, hidentity, -⟩ := create_eq_ok hcreate
    refine ⟨s, hroot, hs.names, hs.references, hs.distinct, ?_⟩
    intro before after version time first hsplit
    rw [← hidentity]
    exact hs.released before after version time first hsplit

/-! ### A name with two slashes in a row -/

/-- A commit and a release whose build metadata has two slashes in a row. -/
def Definition.doubled : Definition :=
  [.commits [⟨"start", "2024-01-01T00:00:00+00:00", false⟩],
    .release "1.0.0+a//b" "2024-01-01T00:00:01+00:00" []]

theorem Repository.ready_fresh : Ready (.new mainBranch) fresh where
  store := rfl
  tidy := by
    refine ⟨FileTree.wellFormed_work.mount_absolute, .inr rfl, ?_, ?_⟩
    · intro k s hmem
      simp only [fresh, List.mem_cons, List.not_mem_nil, or_false, Prod.mk.injEq] at hmem
      rcases hmem with ⟨rfl, -⟩ | ⟨-, hentry⟩
      · decide
      · cases hentry
    · intro w e hw hmem
      simp only [fresh, List.mem_cons, List.not_mem_nil, or_false, Prod.mk.injEq] at hmem
      rcases hmem with ⟨heq, -⟩ | ⟨heq, -⟩
      · exact .inl (List.cons.inj heq).2
      · exact absurd (List.cons.inj heq).2 hw
  slashless := by
    intro entry hentry
    simp only [fresh, List.mem_cons, List.not_mem_nil, or_false] at hentry
    rcases hentry with rfl | rfl
    · decide
    · decide
  named := by decide

section

attribute [local instance] Pattern.Engine.builtIn Git.Merger.builtIn Git.Merger.lawful_builtIn

theorem Definition.check_doubled : doubled.check = .ok () := by decide +kernel

theorem Repository.exists_commits_fresh : ∃ s r,
    on (Replay.commits [⟨"start", "2024-01-01T00:00:00+00:00", false⟩]) fresh = (.ok (), r) ∧
      Ready s r ∧ r.root = fresh.root ∧ r.identity = fresh.identity ∧
        s.head = .branch "refs/heads/main" ∧ s.branches.map (·.1) = ["refs/heads/main"] ∧
          s.tags = [] := by
  have hsignature : signatureAt fresh.identity "2024-01-01T00:00:00+00:00" =
    .ok ⟨"Ada", "ada@example.com", 1704067200, 0⟩ := rfl
  have hmessage : '\x00' ∉ "start".toList := by decide
  obtain ⟨text, s, hcommits, hready, hhead, hbranches, htags, -⟩ :=
    ready_fresh.exists_firstCommit false hsignature rfl hmessage
  exact ⟨s, _, hcommits, hready, rfl, rfl, hhead, hbranches, htags⟩

/-- The commit and the release are replayed, and the slash is single in the reference. -/
theorem Definition.exists_run_doubled : ∃ s r, on (Replay.run doubled) fresh = (.ok (), r) ∧
    storeAt? r.files ["repo"] = some s ∧ s.tags.map (·.1) = ["refs/tags/v1.0.0+a/b"] := by
  obtain ⟨s, r, hcommits, hready, hroot, hidentity, hhead, hbranches, htags⟩ :=
    exists_commits_fresh
  have hsignature : signatureAt r.identity "2024-01-01T00:00:01+00:00" =
      .ok ⟨"Ada", "ada@example.com", 1704067201, 0⟩ := by
    rw [hidentity]
    rfl
  have hroom : Store.hasRoom "refs/heads/main"
      ((s.branches.map (·.1)).filter (· ≠ "refs/heads/main")) = true := by
    rw [hbranches]
    decide
  have hfree : Store.hasRoom "refs/tags/v1.0.0+a/b" (s.tags.map (·.1)) = true := by
    rw [htags]
    rfl
  have hkey : RefName.tag? (Replay.Settings.default.tagFormat.name "1.0.0+a//b") =
      some "refs/tags/v1.0.0+a/b" := by decide
  obtain ⟨index, -, -, -, hpublish⟩ := hready.exists_publish hhead hroom hsignature rfl
    (by decide) (by decide) hkey (by decide +kernel) hfree
  have hreleased : ∃ t r', on (Replay.publish .default "1.0.0+a//b" "2024-01-01T00:00:01+00:00") r =
      (.ok (), r') ∧ storeAt? r'.files ["repo"] = some t ∧
        t.tags.map (·.1) = ["refs/tags/v1.0.0+a/b"] := by
    refine ⟨_, _, hpublish, (congrArg (storeAt? _) hroot.symm).trans (store?_withStore ..), ?_⟩
    rw [releasedStore, htags]
    rfl
  obtain ⟨t, r', hlast, hstore, hreferences⟩ := hreleased
  refine ⟨t, r', ?_, hstore, hreferences⟩
  simp only [Replay.run, doubled, Replay.actAll, Replay.act, on_bind, hcommits, hlast, on_pure]

theorem Definition.exists_build_doubled : ∃ u s,
    on (doubled.build [] "repo" ⟨"Ada", "ada@example.com"⟩) (.new "/work") = (.ok (), u) ∧
      storeAt? u ["repo"] = some s ∧ s.tags.map (·.1) = ["refs/tags/v1.0.0+a/b"] := by
  obtain ⟨s, r, hrun, hstore, hreferences⟩ := exists_run_doubled
  exact ⟨r.files, s, (build_eq_ok on_create_fresh).2 ⟨check_doubled, r, hrun, rfl⟩, hstore,
    hreferences⟩

/-- The tag of the release is there, under a name in which the slash is single. -/
theorem Definition.tagNames_doubled : ∃ u s, doubled.check = .ok () ∧
    on (doubled.build [] "repo" ⟨"Ada", "ada@example.com"⟩) (.new "/work") = (.ok (), u) ∧
      storeAt? u ["repo"] = some s ∧ s.tagNames = ["v1.0.0+a/b"] ∧
        doubled.versions.map doubled.tagFormat.name = ["v1.0.0+a//b"] := by
  obtain ⟨u, s, hbuild, hstore, hreferences⟩ := exists_build_doubled
  refine ⟨u, s, check_doubled, hbuild, hstore, ?_, by decide⟩
  have hnames : s.tags.map (fun t => Store.tagName t.1) = (s.tags.map (·.1)).map Store.tagName := by
    rw [List.map_map]
    rfl
  rw [Store.tagNames, hnames, hreferences, List.map_singleton, List.mergeSort_singleton]
  decide +kernel

/-- What is left of the release, unless its commit has the name of the first one. -/
theorem Definition.tags_of_build_doubled : ∃ u,
    on (doubled.build [] "repo" ⟨"Ada", "ada@example.com"⟩) (.new "/work") = (.ok (), u) ∧
      (Collision (fresh.written (Replay.calls doubled fresh)) ∨
        ∃ s, storeAt? u ["repo"] = some s ∧ s.tags.reverse.map (·.2.name) = ["v1.0.0+a//b"] ∧
          ∃ tag c, Replay.Released ⟨"Ada", "ada@example.com"⟩ "main" .default "1.0.0+a//b"
            "2024-01-01T00:00:01+00:00" s tag c) := by
  obtain ⟨u, -, hbuild, -⟩ := exists_build_doubled
  have hpaths : ∀ f ∈ changelogFiles doubled, fresh.KeepsOut f.path := fun f hf => nomatch hf
  refine ⟨u, hbuild, ?_⟩
  rcases tags_of_build FileTree.wellFormed_work (FileTree.slashless_new _) FileTree.named_nil
    on_create_fresh rfl hpaths hbuild with
    hcollision | ⟨s, hstore, hnames, -, -, hreleased⟩
  · exact .inl hcollision
  · refine .inr ⟨s, hstore, hnames, ?_⟩
    exact hreleased [_] [] "1.0.0+a//b" "2024-01-01T00:00:01+00:00" [] rfl

end

end ReleaseHistory
