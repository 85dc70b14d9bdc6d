import ReleaseHistory.Proofs.Replay.Trees
import ReleaseHistory.Proofs.WorkTree.Clean

/-!
# What a checkout finds changed

A replay keeps the work tree as it was committed: commits, merges, releases and checkouts leave it
clean, and settings are written before there is anything to change. Only changelogs may stand alone.
What is written for them stays as it is until the next commit, and a checkout that comes first
discards it where it is in the place of a committed file.
-/

namespace ReleaseHistory

open Operation Git Repository Traced
open FileTree (Lies)

/-! ### Changelogs that are not committed -/

/-- Nothing that was written before an action is left to be committed after it. -/
def Action.settles : Action → Bool
  | .checkout _ => true
  | .merge m => !m.fastForward
  | .commits cs => !cs.isEmpty
  | .release .. => true
  | _ => false

namespace Definition

/-- The paths of the changelogs that were written since all was committed last. -/
def unsettled (d : Definition) : List String :=
  d.foldl (fun paths a =>
    if a.settles then [] else paths ++ (actionChangelogs a).map (·.path)) []

variable {d : Definition} {a : Action}

theorem unsettled_concat : unsettled (d ++ [a]) =
    if a.settles then [] else d.unsettled ++ (actionChangelogs a).map (·.path) := by
  rw [unsettled, List.foldl_append]
  rfl

theorem unsettled_of_settles (h : a.settles = true) : unsettled (d ++ [a]) = [] := by
  rw [unsettled_concat, if_pos h]

theorem subset_unsettled (h : a.settles = false) : d.unsettled ⊆ unsettled (d ++ [a]) := by
  rw [unsettled_concat, h]
  exact List.subset_append_left _ _

end Definition

/-! ### Names of trees -/

variable {trees : List Snapshot}

/-- What holds of the tree that was staged holds if no other tree has its name. -/
theorem Git.History.confuses_or {h : History} {n : Nat} {c : CommitObject} {tree : Snapshot}
    {P : Prop} (hmem : tree ∈ trees) (hget : h.get? n = some c) (hnamed : tree.id = c.snapshot.id)
    (hsame : tree = c.snapshot → P) : h.Confuses trees ∨ P := by
  by_cases heq : tree = c.snapshot
  · exact .inr (hsame heq)
  · exact .inl ⟨n, c, hget, tree, hmem, heq, hnamed⟩

namespace Repository

theorem gathers_stagedIn [Git.Merger] : Gathers stagedIn := stagedIn_append

theorem mem_stagedIn_commit [Git.Merger] {r : Repository} {s : Store} {tree : Snapshot}
    {message time : String} (hs : r.store? = some s) (htree : r.stagedFiles s = some tree) :
    tree ∈ r.stagedIn [.commit message time] := by
  simp [stagedIn, stagedFor?, hs, htree]

end Repository

namespace Replay

variable {start r r' : Repository} {objects : List Encoded} {s t : Store} {loose : List String}
  {settings settings' : Settings} {full version time : String} {d : Definition} {a : Action}

/-! ### Parts of a replay -/

theorem clean_changelogs [Git.Merger] {fs : List ChangelogFile} (hclean : Clean start loose s r)
    (hi : Intact start objects s r) (hp : Placed start r) (hpaths : ∀ f ∈ fs, start.KeepsOut f.path)
    (h : on (changelogs settings version fs) r = (.ok (), r')) :
    Clean start (loose ++ fs.map (·.path)) s r' := by
  induction fs generalizing r loose with
  | nil =>
    cases h
    rwa [List.map_nil, List.append_nil]
  | cons f fs ih =>
    obtain ⟨hfirst, hrest⟩ := List.forall_mem_cons.1 hpaths
    obtain ⟨found, r₁, -, hwrite, hlater⟩ := changelogs_cons_eq_ok h
    have hwritten := hclean.writeText hi hp hwrite
    have hall := ih hwritten (hi.writeText hfirst hwrite) (hp.writeText hwrite).2.1 hrest hlater
    refine hall.mono fun path hpath => ?_
    simp only [List.cons_append, List.mem_cons, List.mem_append, List.map_cons] at hpath ⊢
    tauto

/-- A commit leaves a clean work tree, unless its tree was taken for another one. -/
theorem exists_clean_commit [Git.Merger] {message id : String} (hi : Intact start objects s r)
    (hdistinct : Distinct objects) (hoffered : ∀ e ∈ r.offered? (.commit message time), e ∈ objects)
    (hstaged : ∀ tree ∈ r.stagedIn [.commit message time], tree ∈ trees)
    (hcoherent : s.history.Coherent) (hhead : s.head = .branch full)
    (h : on (WorkTree.commit message time) r = (.ok id, r')) :
    ∃ t n, Intact start objects t r' ∧ t.head = s.head ∧ t.history.Coherent ∧
      t.branches.lookup full = some n ∧ (t.history.Confuses trees ∨ Clean start [] t r') := by
  have hcommit : on (Repository.commit message time) r = (.ok id, r') := h
  obtain ⟨t, ht, -, hsame⟩ := hi.commit hdistinct hoffered hcommit
  obtain ⟨u, n, c, tree, hu, hcommits, hn, hget, htree, hnamed, hclean⟩ :=
    clean_commit hi hdistinct hoffered hcoherent hhead hcommit
  obtain rfl : t = u := Option.some.inj (ht.store?.symm.trans hu)
  have hmem := hstaged tree (mem_stagedIn_commit hi.store? htree)
  exact ⟨t, n, ht, (hsame full hhead).1, hcommits, hn, History.confuses_or hmem hget hnamed hclean⟩

theorem exists_clean_commits [Git.Merger] {c : Commit} {cs : List Commit}
    (hi : Intact start objects s r) (hdistinct : Distinct objects)
    (hpath : start.KeepsOut changesFile) (hhead : s.head = .branch full)
    (hcoherent : s.history.Coherent) (hoffers : Offers objects (commits (c :: cs)) r)
    (hstages : Among stagedIn trees (commits (c :: cs)) r)
    (h : on (commits (c :: cs)) r = (.ok (), r')) :
    ∃ t n, r'.store? = some t ∧ t.history.Coherent ∧ t.branches.lookup full = some n ∧
      (t.history.Confuses trees ∨ Clean start [] t r') := by
  induction cs generalizing c s r with
  | nil =>
    rw [commits, bind_eq_ok] at h
    obtain ⟨_, r₁, hadd, h⟩ := h
    rw [bind_eq_ok] at h
    obtain ⟨id, r₂, hcommit, hlast⟩ := h
    cases hlast
    obtain ⟨t, n, ht, -, hresult⟩ := exists_clean_commit (hi.addChange hpath hadd) hdistinct
      (hoffers.commits_cons hadd).1 (hstages.commits_cons gathers_stagedIn hadd).1 hcoherent hhead
      hcommit
    exact ⟨t, n, ht.store?, hresult⟩
  | cons next cs ih =>
    rw [commits, bind_eq_ok] at h
    obtain ⟨_, r₁, hadd, h⟩ := h
    rw [bind_eq_ok] at h
    obtain ⟨id, r₂, hcommit, hrest⟩ := h
    obtain ⟨hoffered, hoffers⟩ := hoffers.commits_cons hadd
    obtain ⟨hstaged, hstages⟩ := hstages.commits_cons gathers_stagedIn hadd
    obtain ⟨t, n, ht, hsame, hcommits, -, -⟩ := exists_clean_commit (hi.addChange hpath hadd)
      hdistinct hoffered hstaged hcoherent hhead hcommit
    exact ih ht (hsame.trans hhead) hcommits (hoffers id r₂ hcommit) (hstages id r₂ hcommit) hrest

theorem exists_clean_publish [Git.Merger] (hi : Intact start objects s r)
    (hdistinct : Distinct objects) (hpath : start.KeepsOut versionFile)
    (hhead : s.head = .branch full) (hcoherent : s.history.Coherent)
    (hoffers : Offers objects (publish settings version time) r)
    (hstages : Among stagedIn trees (publish settings version time) r)
    (h : on (publish settings version time) r = (.ok (), r')) :
    ∃ t, r'.store? = some t ∧ t.history.Coherent ∧
      (t.history.Confuses trees ∨ Clean start [] t r') := by
  rw [publish, bind_eq_ok] at h
  obtain ⟨_, r₁, hwrite, h⟩ := h
  rw [bind_eq_ok] at h
  obtain ⟨id, r₂, hcommit, htag⟩ := h
  obtain ⟨u, n, hu, hsame, hcommits, hn, hclean⟩ := exists_clean_commit (hi.writeText hpath hwrite)
    hdistinct (hoffers.publish hwrite) (hstages.publish gathers_stagedIn hwrite) hcoherent hhead
    hcommit
  have hmade : on (Repository.tag (settings.tagFormat.name version)
    (settings.tagFormat.name version) time) r₂ = (.ok (), r') := htag
  obtain ⟨t, ht, hhistory, hkept⟩ := clean_tag hu (hsame.trans hhead) hn hmade
  rw [← hhistory] at hcommits hclean
  exact ⟨t, ht, hcommits, hclean.imp_right hkept⟩

theorem exists_clean_merge [Git.Merger] [Git.LawfulMerger] {m : Merge}
    (hi : Intact start objects s r) (hdistinct : Distinct objects) (hcoherent : s.history.Coherent)
    (hoffers : Offers objects (merge m) r)
    (hclean : m.fastForward = true → s.history.Confuses trees ∨ Clean start loose s r)
    (h : on (merge m) r = (.ok (), r')) :
    ∃ t, r'.store? = some t ∧ t.history.Coherent ∧ (t.history.Confuses trees ∨
      Clean start (if m.fastForward then loose else []) t r') := by
  obtain ⟨branch, fastForward, commit⟩ := m
  cases fastForward with
  | true =>
    have hforward : on (Repository.merge branch .fastForward) r = (.ok (), r') := h
    rcases clean_fastForward hi hcoherent hforward with rfl | ⟨t, ht, hcommits, hmerged⟩
    · exact ⟨s, hi.store?, hcoherent, hclean rfl⟩
    · exact ⟨t, ht, hcommits, .inr (hmerged.mono (List.nil_subset loose))⟩
  | false =>
    cases commit with
    | none => cases h
    | some c =>
      have hmerge : on (Repository.merge branch (.withCommit c)) r = (.ok (), r') := h
      have hrecord : Offers objects (record (.merge branch (.withCommit c))
        (Repository.merge branch (.withCommit c))) r := hoffers
      obtain ⟨t, ht, hcommits, hmerged⟩ :=
        clean_mergeWithCommit hi hdistinct (offers_record.1 hrecord) hcoherent hmerge
      exact ⟨t, ht, hcommits, .inr hmerged⟩

/-! ### Replays -/

/-- What a replay leaves of a work tree: branches are where the definition has them, and files are
those of the commit that is checked out, but for changelogs that are not committed. -/
structure Settled (start : Repository) (trees : List Snapshot) (d : Definition) (s : Store)
    (r : Repository) : Prop where
  placed : Placed start r
  coherent : s.history.Coherent
  born : ∀ branch, d.HasBranch branch → ∃ n, s.tip? branch = some n
  blank : (∀ a ∈ d, ∃ u, a = .changelogs u) → s.index = []
  clean : s.history.Confuses trees ∨ Clean start d.unsettled s r

/-- What an action makes of the branches, and that a changelog stages nothing. -/
def Makes (d : Definition) (s t : Store) : Action → Prop
  | .checkout (.create name _) => ∃ n, t.tip? name = some n
  | .commits (_ :: _) => ∃ n, t.tip? d.currentBranch = some n
  | .changelogs _ => t.index = s.index
  | _ => True

theorem tip?_of_keeps {branch : String} {n : Nat} (hst : s.Keeps t) (h : s.tip? branch = some n) :
    ∃ m, t.tip? branch = some m := by
  obtain ⟨full, hfull, hn⟩ := Option.bind_eq_some_iff.1 h
  obtain ⟨m, hm, -⟩ := hst.branches full n hn
  exact ⟨m, by rw [Store.tip?, hfull, Option.bind_some, hm]⟩

/-- What an action that succeeds leaves: snapshots that can stand in a directory, the branches that
it makes, and a work tree that is clean but for changelogs. -/
structure Leaves (start : Repository) (trees : List Snapshot) (d : Definition) (s : Store)
    (a : Action) (t : Store) (r' : Repository) : Prop where
  coherent : t.history.Coherent
  makes : Makes d s t a
  clean : t.history.Confuses trees ∨ Clean start (Definition.unsettled (d ++ [a])) t r'

theorem Settled.exists_lookup (h : Settled start trees d s r) {branch : String}
    (hbranch : d.HasBranch branch) :
    ∃ full n, RefName.branch? branch = some full ∧ s.branches.lookup full = some n := by
  obtain ⟨n, hn⟩ := h.born branch hbranch
  obtain ⟨full, hfull, hlookup⟩ := Option.bind_eq_some_iff.1 hn
  exact ⟨full, n, hfull, hlookup⟩

theorem Settled.concat [Git.Merger] (h : Settled start trees d s r) (ht : Intact start objects t r')
    (hact : on (act settings a) r = (.ok settings', r')) (hst : s.Keeps t)
    (hleaves : Leaves start trees d s a t r') : Settled start trees (d ++ [a]) t r' where
  placed := by
    have hconfined := confined_on (traces_act settings a) h.placed.confined
    rw [hact] at hconfined
    exact h.placed.of_stores ht hconfined.2
  coherent := hleaves.coherent
  born := by
    have hmakes := hleaves.makes
    intro branch hbranch
    rcases Definition.hasBranch_concat.1 hbranch with hold | ⟨base, rfl⟩ | ⟨rfl, hmain, c, cs, rfl⟩
    · obtain ⟨n, hn⟩ := h.born branch hold
      exact tip?_of_keeps hst hn
    · exact hmakes
    · rw [← hmain]
      exact hmakes
  blank := by
    have hmakes := hleaves.makes
    intro hall
    obtain ⟨u, hu⟩ := hall a (List.mem_append_right d (List.mem_singleton_self a))
    rw [hu] at hmakes
    have hindex : t.index = s.index := hmakes
    rw [hindex]
    exact h.blank fun b hb => hall b (List.mem_append_left [a] hb)
  clean := hleaves.clean

theorem leaves_configure [Pattern.Engine] {c : Configuration} (hs : Settled start trees d s r)
    (hfits : d.Fits (.configure c)) : Leaves start trees d s (.configure c) s r' where
  coherent := hs.coherent
  makes := trivial
  clean := by
    refine hs.clean.imp_right fun hclean => ⟨hclean.index, fun entry hentry => ?_⟩
    -- settings come before there is anything in the index
    rw [hs.blank (hfits.configuredFirst c rfl)] at hentry
    cases hentry

theorem leaves_checkout [Git.Merger] [Pattern.Engine] {c : Checkout}
    (hs : Settled start trees d s r) (hi : Intact start objects s r) (hfits : d.Fits (.checkout c))
    (h : on (checkout c) r = (.ok (), r')) :
    ∃ t, r'.store? = some t ∧ Leaves start trees d s (.checkout c) t r' := by
  have hsettles := Definition.unsettled_of_settles (d := d) (a := .checkout c) rfl
  cases c with
  | existing branch =>
    obtain ⟨full, n, hfull, hn⟩ := hs.exists_lookup hfits.branches
    obtain ⟨t, ht, hhistory, -, hclean⟩ := clean_checkout hi hs.coherent hfull hn h
    exact ⟨t, ht, hhistory ▸ hs.coherent, trivial, .inr (hsettles ▸ hclean)⟩
  | create name base =>
    obtain ⟨t, n, ht, hhistory, htip, hclean⟩ := clean_createBranch hi hs.coherent h
    exact ⟨t, ht, hhistory ▸ hs.coherent, ⟨n, htip⟩, .inr (hsettles ▸ hclean)⟩

theorem leaves_merge [Git.Merger] [Git.LawfulMerger] {m : Merge} (hs : Settled start trees d s r)
    (hi : Intact start objects s r) (hdistinct : Distinct objects)
    (hoffers : Offers objects (merge m) r) (h : on (merge m) r = (.ok (), r')) :
    ∃ t, r'.store? = some t ∧ Leaves start trees d s (.merge m) t r' := by
  obtain ⟨t, ht, hcoherent, hclean⟩ :=
    exists_clean_merge hi hdistinct hs.coherent hoffers (fun _ => hs.clean) h
  refine ⟨t, ht, hcoherent, trivial, hclean.imp_right fun hclean => hclean.mono ?_⟩
  split_ifs with hforward
  · exact Definition.subset_unsettled (by rw [Action.settles, hforward]; rfl)
  · exact List.nil_subset _

theorem leaves_commits [Git.Merger] {cs : List Commit} (h : Told start objects d settings s r)
    (hs : Settled start trees d s r) (hdistinct : Distinct objects)
    (hpath : start.KeepsOut changesFile) (hoffers : Offers objects (commits cs) r)
    (hstages : Among stagedIn trees (commits cs) r) (hcommits : on (commits cs) r = (.ok (), r')) :
    ∃ t, r'.store? = some t ∧ Leaves start trees d s (.commits cs) t r' := by
  cases cs with
  | nil =>
    cases hcommits
    refine ⟨s, h.intact.store?, hs.coherent, trivial, hs.clean.imp_right fun hclean => ?_⟩
    exact hclean.mono (Definition.subset_unsettled rfl)
  | cons c cs =>
    obtain ⟨current, hcurrent, hhead⟩ := h.head
    obtain ⟨t, n, ht, hcoherent, hn, hclean⟩ := exists_clean_commits h.intact hdistinct hpath hhead
      hs.coherent hoffers hstages hcommits
    refine ⟨t, ht, hcoherent, ⟨n, ?_⟩, ?_⟩
    · rw [Store.tip?, hcurrent, Option.bind_some, hn]
    · rwa [Definition.unsettled_of_settles rfl]

theorem leaves_release [Git.Merger] [Pattern.Engine] {first : List Action}
    (h : Told start objects d settings s r)
    (hs : Settled start trees d s r) (hdistinct : Distinct objects)
    (hfits : d.Fits (.release version time first)) (hpath : start.KeepsOut versionFile)
    (hpaths : ∀ f ∈ Definition.actionChangelogs (.release version time first), start.KeepsOut f.path)
    (hoffers : Offers objects (act settings (.release version time first)) r)
    (hstages : Among stagedIn trees (act settings (.release version time first)) r)
    (hact : on (act settings (.release version time first)) r = (.ok settings', r')) :
    ∃ t, r'.store? = some t ∧ Leaves start trees d s (.release version time first) t r' := by
  have hfirst : ∀ b ∈ first, ∃ u, b = .changelogs u := by
    obtain ⟨-, -, -, -, hbefore, -⟩ := hfits.releases
    intro b hb
    obtain ⟨u, hu, -⟩ := hbefore b hb
    exact ⟨u, hu⟩
  rw [act, bind_eq_ok] at hact
  obtain ⟨settings₁, r₁, hchangelogs, hact⟩ := hact
  rw [bind_eq_ok] at hact
  obtain ⟨_, r₂, hpublish, hpure⟩ := hact
  cases hpure
  obtain ⟨current, -, hhead⟩ := h.head
  obtain ⟨rfl, hi⟩ := intact_actAll_changelogs h.intact hfirst hpaths hchangelogs
  obtain ⟨t, ht, hcoherent, hclean⟩ := exists_clean_publish hi hdistinct hpath hhead hs.coherent
    (hoffers.ofRelease hchangelogs) (hstages.ofRelease gathers_stagedIn hchangelogs) hpublish
  refine ⟨t, ht, hcoherent, trivial, ?_⟩
  rwa [Definition.unsettled_of_settles rfl]

theorem leaves_changelogs [Git.Merger] {u : ChangelogUpdate} (hs : Settled start trees d s r)
    (hi : Intact start objects s r) (hpaths : ∀ f ∈ u.files, start.KeepsOut f.path)
    (h : on (changelogs settings u.version u.files) r = (.ok (), r')) :
    Leaves start trees d s (.changelogs u) s r' where
  coherent := hs.coherent
  makes := rfl
  clean := by
    rw [Definition.unsettled_concat]
    exact hs.clean.imp_right fun hclean => clean_changelogs hclean hi hs.placed hpaths h

theorem leaves_act [Git.Merger] [Git.LawfulMerger] [Pattern.Engine]
    (h : Told start objects d settings s r) (hs : Settled start trees d s r)
    (hdistinct : Distinct objects) (hfits : d.Fits a)
    (hnames : ∀ name ∈ [documentFile, ignoreFile, changesFile, versionFile], start.KeepsOut name)
    (hpaths : ∀ f ∈ Definition.actionChangelogs a, start.KeepsOut f.path)
    (hoffers : Offers objects (act settings a) r) (hstages : Among stagedIn trees (act settings a) r)
    (hact : on (act settings a) r = (.ok settings', r')) :
    ∃ t, r'.store? = some t ∧ Leaves start trees d s a t r' := by
  cases a with
  | configure c =>
    obtain ⟨hi, -⟩ := h.intact.configure (hnames _ (by simp)) (hnames _ (by simp)) hact
    exact ⟨s, hi.store?, leaves_configure hs hfits⟩
  | checkout c =>
    rw [act, bind_eq_ok] at hact
    obtain ⟨_, r₁, hcheckout, hpure⟩ := hact
    cases hpure
    exact leaves_checkout hs h.intact hfits hcheckout
  | merge m =>
    rw [act, bind_eq_ok] at hact
    obtain ⟨_, r₁, hmerge, hpure⟩ := hact
    cases hpure
    exact leaves_merge hs h.intact hdistinct hoffers.ofMerge hmerge
  | commits cs =>
    rw [act, bind_eq_ok] at hact
    obtain ⟨_, r₁, hcommits, hpure⟩ := hact
    cases hpure
    exact leaves_commits h hs hdistinct (hnames _ (by simp)) hoffers.ofCommits
      (hstages.ofCommits gathers_stagedIn) hcommits
  | release version time first =>
    exact leaves_release h hs hdistinct hfits (hnames _ (by simp)) hpaths hoffers hstages hact
  | changelogs u =>
    rw [act, bind_eq_ok] at hact
    obtain ⟨_, r₁, hwrite, hpure⟩ := hact
    cases hpure
    have hi := h.intact.changelogs hpaths hwrite
    exact ⟨s, hi.store?, leaves_changelogs hs h.intact hpaths hwrite⟩

theorem settled_act [Git.Merger] [Git.LawfulMerger] [Pattern.Engine]
    (h : Told start objects d settings s r) (hs : Settled start trees d s r)
    (hdistinct : Distinct objects) (hfits : d.Fits a)
    (hnames : ∀ name ∈ [documentFile, ignoreFile, changesFile, versionFile], start.KeepsOut name)
    (hpaths : ∀ f ∈ Definition.actionChangelogs a, start.KeepsOut f.path)
    (hoffers : Offers objects (act settings a) r) (hstages : Among stagedIn trees (act settings a) r)
    (hact : on (act settings a) r = (.ok settings', r')) :
    ∃ t, Told start objects (d ++ [a]) settings' t r' ∧ s.Keeps t ∧
      Settled start trees (d ++ [a]) t r' := by
  obtain ⟨t, ht, hst⟩ := told_act h hdistinct hfits hnames hpaths hoffers hact
  obtain ⟨u, hu, hleaves⟩ :=
    leaves_act h hs hdistinct hfits hnames hpaths hoffers hstages hact
  obtain rfl : u = t := Option.some.inj (hu.symm.trans ht.intact.store?)
  exact ⟨u, ht, hst, hs.concat ht.intact hact hst hleaves⟩

theorem settled_actAll [Git.Merger] [Git.LawfulMerger] [Pattern.Engine] {as : List Action}
    (h : Told start objects d settings s r) (hs : Settled start trees d s r)
    (hdistinct : Distinct objects) (hvalid : Definition.Valid (d ++ as))
    (hnames : ∀ name ∈ [documentFile, ignoreFile, changesFile, versionFile], start.KeepsOut name)
    (hpaths : ∀ f ∈ Definition.changelogFiles as, start.KeepsOut f.path)
    (hoffers : Offers objects (actAll settings as) r)
    (hstages : Among stagedIn trees (actAll settings as) r)
    (hall : on (actAll settings as) r = (.ok settings', r')) :
    ∃ t, r'.store? = some t ∧ Settled start trees (d ++ as) t r' := by
  induction as generalizing d settings s r with
  | nil =>
    cases hall
    rw [List.append_nil]
    exact ⟨s, h.intact.store?, hs⟩
  | cons a as ih =>
    rw [actAll, bind_eq_ok] at hall
    obtain ⟨settings₁, r₁, hact, hrest⟩ := hall
    rw [List.append_cons] at hvalid
    have hfits := (Definition.valid_concat.1 hvalid.left).2
    obtain ⟨hfirst, hlater⟩ := List.forall_mem_append.1 hpaths
    obtain ⟨t, ht, -, hsettled⟩ := settled_act h hs hdistinct hfits hnames hfirst hoffers.head
      (hstages.head gathers_stagedIn) hact
    rw [List.append_cons]
    exact ih ht hsettled hvalid hlater (hoffers.tail hact) (hstages.tail gathers_stagedIn hact) hrest

theorem settled_nil (hp : Placed start start) : Settled start trees [] (.new mainBranch) start where
  placed := hp
  coherent := fun _ => Snapshot.coherent_nil
  born := fun _ hbranch => absurd hbranch Definition.not_hasBranch_nil
  blank := fun _ => rfl
  clean := .inr ⟨rfl, fun _ hentry => nomatch hentry⟩

end Replay

/-! ### Whole replays -/

open FileTree (Named Plain)

/-- When a replay comes to a checkout, what is committed and staged on the branch lies in the work
tree as it is, but for what the changelogs lead to that were written since the last commit. This is so
unless two different commits of the replay, or two different trees, have the same name. -/
theorem Definition.changed_at_checkout [Git.Merger] [Git.LawfulMerger] [Pattern.Engine]
    {before after : Definition} {c : Checkout} {t u : FileTree}
    {base : Location} {path : String} {i : Identity} {r r' : Repository} (ht : t.WellFormed)
    (hslashless : t.Slashless) (hbase : Named base) (hcreate : on (create base path i) t = (.ok r, u))
    (hnew : t.get? (storeLocation r.root) = none) (hclear : t.StoresIn fun l => ¬r.root <+: l)
    (hcheck : Definition.check (before ++ .checkout c :: after) = .ok ())
    (hpaths : ∀ f ∈ changelogFiles before, r.KeepsOut f.path)
    (hrun : on (Replay.run before) r = (.ok (), r')) :
    Collision (r.written (Replay.calls before r)) ∨ ∃ s, r'.store? = some s ∧
      (s.history.Confuses (r.stagedIn (Replay.calls before r)) ∨
        s.index = s.headSnapshot ∧ ∀ file, r'.Changed s file →
          ∃ changelog ∈ before.unsettled, r.LeadsTo changelog (Text.splitOn '/' file)) := by
  obtain ⟨p, hp⟩ := Definition.check_eq_ok.1 hcheck
  have hvalid : Definition.Valid before := (Definition.tracks_of_checkFrom hp).1.left
  have hplaced := placed_of_create ht hslashless hbase hcreate hnew hclear
  have hmount : r.files.mount.startsWith "/" = true := by
    rw [mount_create ht hcreate]
    exact ht.mount_absolute
  rcases collision_or_distinct (r.written (Replay.calls before r)) with hcollision | hdistinct
  · exact .inl hcollision
  right
  rw [Replay.run, bind_eq_ok] at hrun
  obtain ⟨settings, r₁, hall, hpure⟩ := hrun
  cases hpure
  have hoffers : Offers (r.written (Replay.calls before r)) (Replay.run before) r := fun e he => he
  have hstages : Among stagedIn (r.stagedIn (Replay.calls before r)) (Replay.run before) r :=
    fun tree htree => htree
  have hstart := intact_create hslashless hbase hcreate (store?_create ht hcreate hnew)
    (r.written (Replay.calls before r))
  obtain ⟨s, hs, hsettled⟩ := Replay.settled_actAll (Replay.told_nil hstart)
    (Replay.settled_nil hplaced) hdistinct hvalid (keepsOut_files hmount) hpaths hoffers.ofRun
    (hstages.ofRun gathers_stagedIn) hall
  refine ⟨s, hs, hsettled.clean.imp_right fun hclean => ⟨hclean.index, fun file hfile => ?_⟩⟩
  exact hclean.exists_leadsTo hsettled.placed.root hfile

namespace Definition

/-- A changelog is written into a committed file and is not committed. -/
def unsaved : Definition :=
  [.commits [⟨"start", "2024-01-01T00:00:00+00:00", false⟩],
    .changelogs ⟨"1.0.0", [⟨Replay.changesFile, .markdown⟩]⟩]

section

attribute [local instance] Pattern.Engine.builtIn

theorem check_unsaved : Definition.check (unsaved ++ [.checkout (.existing "main")]) = .ok () := by
  decide +kernel

end

end Definition

namespace Repository

def startedText : String := "start\n"

/-- The list of changes after the changelog is written into it. -/
def unsavedText : String :=
  "# CHANGELOG\n\n## v1.0.0\n\n- Release generated from repository history\n\nstart\n"

section

attribute [local instance] Git.Merger.builtIn

theorem exists_started : ∃ s n,
    on (Replay.commits [⟨"start", "2024-01-01T00:00:00+00:00", false⟩]) fresh =
      (.ok (), (fresh.withFile Replay.changesFile startedText).withStore s) ∧
    s.head = .branch "refs/heads/main" ∧ s.branches.lookup "refs/heads/main" = some n ∧
      (s.history.snapshot n).Coherent ∧
        (s.history.snapshot n).get? Replay.changesFile = some startedText := by
  obtain ⟨hname, hstore⟩ := plain_changesFile
  have hnone : fresh.files.own? (fresh.root ++ [Replay.changesFile]) = none := by rfl
  have hread := ready_fresh.on_readText_of_none hname hnone
  have hadd : on (Replay.addChange "start") fresh =
      (.ok (), fresh.withFile Replay.changesFile startedText) := by
    rw [Replay.addChange, on_bind_of_ok hread]
    exact ready_fresh.on_writeText hname hstore startedText
  have hadded := ready_fresh.withFile hname hstore startedText
  have hsignature : signatureAt fresh.identity "2024-01-01T00:00:00+00:00" =
    .ok ⟨"Ada", "ada@example.com", 1704067200, 0⟩ := rfl
  have hmessage : '\x00' ∉ "start".toList := by decide
  have hhead : (Store.new mainBranch).head = .branch "refs/heads/main" := rfl
  obtain ⟨index, id, hindex, -, -, hcommit⟩ :=
    hadded.exists_commit hhead rfl hsignature rfl hmessage
  have hlies : Lies (fresh.withFile Replay.changesFile startedText).files fresh.root
      [Replay.changesFile] startedText :=
    FileTree.lies_name (FileTree.own?_put.trans (if_pos rfl))
  have hincluded : (fresh.withFile Replay.changesFile startedText).includes (.new mainBranch)
      [Replay.changesFile] = true := by decide +kernel
  have hheld := get?_stagedFiles hadded.slashless hindex (List.cons_ne_nil _ _) hlies
  rw [if_pos hincluded] at hheld
  obtain ⟨c, hc⟩ : ∃ c : CommitObject, c =
      ⟨index, ((Store.new mainBranch).commitOf? "refs/heads/main").toList,
        ⟨"Ada", "ada@example.com", 1704067200, 0⟩, "start"⟩ := ⟨_, rfl⟩
  rw [← hc] at hcommit
  -- a new history has no commit of the same name
  have hfirst : (Store.new mainBranch).history.add c = (0, (Store.new mainBranch).history.push c) := by
    rcases History.add_eq (Store.new mainBranch).history c with ⟨-, hpushed⟩ | ⟨n, hnamed, -⟩
    · exact hpushed
    · cases hnamed
  obtain ⟨s, hs⟩ : ∃ s, s = ({ Store.new mainBranch with index := index } : Store).committed
    "refs/heads/main" c := ⟨_, rfl⟩
  rw [← hs] at hcommit
  have hsnapshot : s.history.snapshot 0 = index := by
    rw [hs, Store.committed, Store.setTip_history, hfirst, History.snapshot, History.get?_push, hc]
    rfl
  refine ⟨s, 0, (on_bind_of_ok hadd).trans (on_bind_of_ok hcommit), ?_, ?_, ?_, ?_⟩
  · rw [hs, Store.committed, Store.setTip_head]
    exact hhead
  · rw [hs, Store.committed, hfirst, Store.lookup_setTip, if_pos rfl]
  · rw [hsnapshot]
    exact coherent_stagedFiles hadded.slashless hindex
  · rw [hsnapshot]
    exact hheld

theorem exists_unsaved : ∃ r s n, on (Replay.run Definition.unsaved) fresh = (.ok (), r) ∧
    Ready s r ∧ r.root = ["repo"] ∧
      r.files.get? ["repo", Replay.changesFile] = some (.text unsavedText) ∧
      s.head = .branch "refs/heads/main" ∧ s.branches.lookup "refs/heads/main" = some n ∧
      (s.history.snapshot n).Coherent ∧
        (s.history.snapshot n).get? Replay.changesFile = some startedText := by
  obtain ⟨s, n, hcommits, hsnapshot⟩ := exists_started
  obtain ⟨hname, hstore⟩ := plain_changesFile
  have hready := (ready_fresh.withFile hname hstore startedText).withStore s
  have hread : on (WorkTree.readText Replay.changesFile) ((fresh.withFile Replay.changesFile
      startedText).withStore s) = (.ok (some startedText), _) := hready.on_readText hname rfl
  have htext : Changelog.update .markdown (some startedText)
      (Replay.Settings.default.tagFormat.name "1.0.0") Replay.Settings.default.maskInitialRelease =
        unsavedText := by decide +kernel
  have hchangelogs : on (Replay.changelogs .default "1.0.0" [⟨Replay.changesFile, .markdown⟩])
      ((fresh.withFile Replay.changesFile startedText).withStore s) =
        (.ok (), ((fresh.withFile Replay.changesFile startedText).withStore s).withFile
          Replay.changesFile unsavedText) := by
    rw [Replay.changelogs, on_bind_of_ok hread]
    dsimp only
    rw [htext, on_bind_of_ok (hready.on_writeText hname hstore unsavedText)]
    rfl
  refine ⟨_, s, n, ?_, hready.withFile hname hstore unsavedText, rfl, rfl, hsnapshot⟩
  simp only [Replay.run, Definition.unsaved, Replay.actAll, Replay.act, on_bind, hcommits,
    hchangelogs, on_pure]

end

end Repository

namespace Definition

section

attribute [local instance] Pattern.Engine.builtIn Git.Merger.builtIn Git.Merger.lawful_builtIn

/-- Nothing but the list of changes differs when the branch is checked out. -/
theorem changed_at_checkout_unsaved : ∃ r,
    on (Replay.run unsaved) fresh = (.ok (), r) ∧
      (Collision (fresh.written (Replay.calls unsaved fresh)) ∨ ∃ s, r.store? = some s ∧
        (s.history.Confuses (fresh.stagedIn (Replay.calls unsaved fresh)) ∨
          s.index = s.headSnapshot ∧ ∀ file, r.Changed s file →
            fresh.LeadsTo Replay.changesFile (Text.splitOn '/' file))) := by
  obtain ⟨r, -, -, hrun, -⟩ := exists_unsaved
  have hmount : fresh.files.mount.startsWith "/" = true := FileTree.wellFormed_work.mount_absolute
  have hplain : ∀ f ∈ changelogFiles unsaved, Plain f.path ∧ f.path ≠ FileTree.storeName := by
    decide
  have hpaths : ∀ f ∈ changelogFiles unsaved, fresh.KeepsOut f.path :=
    fun f hf => keepsOut_of_plain hmount (hplain f hf).1 (hplain f hf).2
  have hclear : (FileTree.new "/work").StoresIn fun l => ¬fresh.root <+: l :=
    fun l s hs => nomatch hs
  refine ⟨r, hrun, ?_⟩
  rcases changed_at_checkout FileTree.wellFormed_work (FileTree.slashless_new _) FileTree.named_nil
    on_create_fresh rfl hclear check_unsaved hpaths hrun with hcollision | ⟨s, hs, hconfuses | hchanged⟩
  · exact .inl hcollision
  · exact .inr ⟨s, hs, .inl hconfuses⟩
  · refine .inr ⟨s, hs, .inr ⟨hchanged.1, fun file hfile => ?_⟩⟩
    obtain ⟨changelog, hmem, hleads⟩ := hchanged.2 file hfile
    have hone : unsaved.unsettled = [Replay.changesFile] := rfl
    rw [hone, List.mem_singleton] at hmem
    rwa [hmem] at hleads

/-- The list of changes holds a changelog that the commit does not have, and the branch is checked
out with the list as it was committed. -/
theorem discarded_unsaved : ∃ r r' s, check (unsaved ++ [.checkout (.existing "main")]) = .ok () ∧
    on (create [] "repo" ⟨"Ada", "ada@example.com"⟩) (.new "/work") = (.ok fresh, fresh.files) ∧
      on (Replay.run unsaved) fresh = (.ok (), r) ∧ r.store? = some s ∧
      r.Changed s Replay.changesFile ∧
      r.files.get? ["repo", Replay.changesFile] = some (.text unsavedText) ∧
      on (Replay.checkout (.existing "main")) r = (.ok (), r') ∧
        r'.files.get? ["repo", Replay.changesFile] = some (.text startedText) := by
  obtain ⟨r, s, n, hrun, hready, hroot, hunsaved, hhead, hn, hcoherent, hheld⟩ := exists_unsaved
  have hplain : Revision.PlainBranch "main" := by decide
  have hcurrent : headOf? s (RefName.headsPlace ++ "main") = some (.branch "refs/heads/main") := by
    have hname : RefName.normalize? (RefName.headsPlace ++ "main") = some "refs/heads/main" := by decide
    rw [headOf?, hname, Option.map_some, hn]
  have hsplit : Text.splitOn '/' Replay.changesFile = [Replay.changesFile] := by decide
  have hsnapshot : s.headSnapshot = s.history.snapshot n := headSnapshot_of_tip hhead hn
  obtain ⟨t, ht⟩ : ∃ t : Store, t = { s with
    index := s.history.snapshot n, head := .branch "refs/heads/main" } := ⟨_, rfl⟩
  have hmoved : on (Repository.checkout "main") r =
      (.ok (), (r.showing s (s.history.snapshot n)).withStore t) := by
    rw [ht]
    exact on_checkout_of_resolve hready.store (hplain.resolve hn) rfl hcurrent
  have hcheckout : on (Replay.checkout (.existing "main")) r =
      (.ok (), (r.showing s (s.history.snapshot n)).withStore t) := hmoved
  have hmem := Snapshot.mem_of_get? hheld
  refine ⟨r, _, s, check_unsaved, on_create_fresh, hrun, hready.store, ⟨?_, ?_⟩, hunsaved, hcheckout, ?_⟩
  · rw [hsnapshot]
    exact List.mem_map_of_mem (List.mem_append_left _ hmem)
  · have hdiffers : unsavedText ≠ startedText := by decide
    rw [hroot, hsplit, hsnapshot, hheld]
    intro heq
    exact hdiffers (Entry.text.inj (Option.some.inj (hunsaved.symm.trans heq)))
  · have hlies := shows_replaceFiles hcoherent (s.headSnapshot ++ s.index) r.files r.root _ hmem
    rw [hsplit] at hlies
    have hafter := (hlies.put (k := [FileTree.storeName]) (by decide) (.store
      { s with index := s.history.snapshot n })).put (k := [FileTree.storeName]) (by decide) (.store t)
    have hget : ((r.showing s (s.history.snapshot n)).withStore t).files.get?
        (r.root ++ [Replay.changesFile]) = some (.text startedText) :=
      FileTree.get?_of_own? (by simp) hafter.own
    rw [hroot] at hget
    exact hget

end

end Definition

end ReleaseHistory
