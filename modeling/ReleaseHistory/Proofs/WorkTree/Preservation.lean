import ReleaseHistory.Proofs.Git.Merger
import ReleaseHistory.Proofs.Git.Revision
import ReleaseHistory.Proofs.Git.Store
import ReleaseHistory.Proofs.WorkTree.Calls
import ReleaseHistory.Proofs.WorkTree.Repository

/-!
# Nothing is lost from a repository

A new repository has a sound store that no path of a snapshot leads into. Every operation keeps it
so, whether it succeeds or is refused, and loses no branch, no tag and no commit: branches are where
they were or at descendants. This holds in every run that writes no files into the store, as long as
no two of the commits that are offered to the store have the same name.
-/

namespace ReleaseHistory.Repository

open Operation Git
open FileTree (Named Holding Slashless)

variable {start r r' : Repository} {s t : Store} {objects : List Encoded} {snapshot : Snapshot}
  {branch name message time path text : String} {n : Nat} {c : CommitObject}

/-! ### Intact repositories -/

/-- A repository that is, but for its files, as it was at the start, and that has a sound store which
no path of a snapshot leads into. -/
structure Intact (start : Repository) (objects : List Encoded) (s : Store) (r : Repository) :
    Prop where
  root : r.root = start.root
  identity : r.identity = start.identity
  named : Named start.root
  holding : Holding (storeLocation start.root) (.store s) start.files.mount r.files
  sound : s.Sound objects
  snapshots : ∀ n c, s.history.get? n = some c → Outside c.snapshot
  index : Outside s.index

theorem Intact.store? (hi : Intact start objects s r) : r.store? = some s := by
  rw [Repository.store?, storeAt?_eq_some, hi.root]
  exact hi.holding.own

theorem Intact.withStore (hi : Intact start objects s r) (ht : t.Sound objects)
    (hsnapshots : ∀ n c, t.history.get? n = some c → Outside c.snapshot) (hindex : Outside t.index) :
    Intact start objects t (r.withStore t) where
  root := hi.root
  identity := hi.identity
  named := hi.named
  holding := by
    have hnamed : Named (storeLocation start.root) := hi.holding.slashless.named hi.holding.own
    refine ⟨?_, ?_, hi.holding.mount_eq⟩
    · rw [Repository.withStore, hi.root]
      exact FileTree.own?_put.trans (if_pos rfl)
    · rw [Repository.withStore, hi.root]
      exact hi.holding.slashless.put hnamed
  sound := ht
  snapshots := hsnapshots
  index := hindex

theorem Intact.outside (hi : Intact start objects s r) (n : Nat) : Outside (s.history.snapshot n) := by
  rw [History.snapshot]
  cases hget : s.history.get? n with
  | none => exact fun entry hentry => absurd hentry List.not_mem_nil
  | some c => exact hi.snapshots n c hget

theorem Intact.outside_headSnapshot (hi : Intact start objects s r) : Outside s.headSnapshot := by
  unfold Store.headSnapshot
  split
  · exact hi.outside _
  · exact fun entry hentry => absurd hentry List.not_mem_nil

theorem Intact.withFiles (hi : Intact start objects s r) {files : FileTree}
    (hfiles : Holding (storeLocation start.root) (.store s) start.files.mount files) :
    Intact start objects s { r with files := files } :=
  ⟨hi.root, hi.identity, hi.named, hfiles, hi.sound, hi.snapshots, hi.index⟩

theorem sound_of_same (hs : s.Sound objects) (hhistory : t.history = s.history)
    (hbranches : t.branches = s.branches) (htags : t.tags = s.tags) : t.Sound objects where
  history := by rw [hhistory]; exact hs.history
  within := by rw [hhistory]; exact hs.within
  branches := by rw [hhistory, hbranches]; exact hs.branches
  tags := by rw [hhistory, htags]; exact hs.tags
  tagNames := by rw [htags]; exact hs.tagNames

theorem Intact.atHead (hi : Intact start objects s r) (head : Head) {index : Snapshot}
    (hindex : Outside index) :
    Intact start objects { s with head := head, index := index }
      (r.withStore { s with head := head, index := index }) :=
  hi.withStore (sound_of_same hi.sound rfl rfl rfl) hi.snapshots hindex

theorem Intact.setTip (hi : Intact start objects s r) (hn : n < s.history.commits.size)
    (full : String) : Intact start objects (s.setTip full n) (r.withStore (s.setTip full n)) := by
  apply hi.withStore (hi.sound.setTip hn full)
  · rw [Store.setTip_history]
    exact hi.snapshots
  · rw [Store.setTip_index]
    exact hi.index

theorem Intact.showing (hi : Intact start objects s r) (hsnapshot : Outside snapshot) :
    Intact start objects { s with index := snapshot } (r.showing s snapshot) := by
  have hbefore : Outside (s.headSnapshot ++ s.index) := hi.outside_headSnapshot.append hi.index
  have hfiles := spares_replaceFiles hi.named hbefore hsnapshot hi.holding
  rw [← hi.root] at hfiles
  have hmoved := hi.withFiles (by rw [← hi.root]; exact hfiles)
  exact hmoved.atHead s.head hsnapshot

/-! ### What operations leave -/

/-- Nothing is lost, and no tag is new. -/
structure Proceeds (s t : Store) : Prop where
  keeps : s.Keeps t
  tags : t.tags = s.tags

theorem Proceeds.refl : Proceeds s s := ⟨.refl, rfl⟩

theorem Proceeds.trans {u : Store} (hst : Proceeds s t) (htu : Proceeds t u) : Proceeds s u :=
  ⟨hst.keeps.trans htu.keeps, htu.tags.trans hst.tags⟩

theorem proceeds_of_same (hhistory : t.history = s.history) (hbranches : t.branches = s.branches)
    (htags : t.tags = s.tags) : Proceeds s t where
  keeps := by
    refine ⟨?_, ?_, ?_⟩
    · rw [hhistory]
      exact .refl
    · intro key m hm
      rw [hbranches]
      exact ⟨m, hm, .refl⟩
    · intro key tag htag
      rwa [htags]
  tags := htags

variable {head : Head}

theorem headOf?_eq (hs : s.Sound objects) (name : String) :
    headOf? s (RefName.headsPlace ++ name) = (RefName.branch? name).map .branch := by
  rw [headOf?, RefName.normalize?_headsPlace_append]
  cases hfull : RefName.branch? name with
  | none => rfl
  | some full =>
    have hno : s.tags.lookup full = none := by
      cases htag : s.tags.lookup full with
      | none => rfl
      | some tag => exact absurd (hs.tagNames full tag htag) (RefName.branch?_ne_tag? hfull)
    simp only [Option.map_some, hno]
    cases s.branches.lookup full <;> rfl

theorem Intact.checkoutHead {result : Except Fault Unit} (hi : Intact start objects s r)
    (h : on checkoutHead r = (result, r')) :
    ∃ t, Intact start objects t r' ∧ Proceeds s t ∧ t.head = s.head := by
  rw [on_checkoutHead hi.store?] at h
  split at h
  · cases h
    exact ⟨s, hi, .refl, rfl⟩
  · cases h
    exact ⟨s, hi, .refl, rfl⟩
  · cases h
    exact ⟨_, hi.showing (hi.outside _), proceeds_of_same rfl rfl rfl, rfl⟩

theorem Intact.checkout {result : Except Fault Unit} (hi : Intact start objects s r)
    (h : on (checkout name) r = (result, r')) :
    ∃ t, Intact start objects t r' ∧ Proceeds s t ∧ (result = .ok () →
      ∃ full, RefName.branch? name = some full ∧ t.head = .branch full) := by
  rw [on_checkout hi.store?, headOf?_eq hi.sound] at h
  split at h
  · cases h
    exact ⟨s, hi, .refl, fun hok => nomatch hok⟩
  · rename_i target htarget
    split at h
    · cases h
      exact ⟨s, hi, .refl, fun hok => nomatch hok⟩
    · rename_i snapshot hsnapshot
      have hout : Outside snapshot :=
        Revision.without_of_resolve hi.outside hi.index htarget hsnapshot
      rw [on_setStore?] at h
      cases hfull : RefName.branch? name with
      | none =>
        rw [hfull] at h
        cases h
        exact ⟨_, hi.showing hout, proceeds_of_same rfl rfl rfl, fun hok => nomatch hok⟩
      | some full =>
        rw [hfull] at h
        cases h
        exact ⟨_, (hi.showing hout).atHead (.branch full) hout, proceeds_of_same rfl rfl rfl,
          fun _ => ⟨full, rfl, rfl⟩⟩

theorem Intact.createBranch {start' : String} {result : Except Fault Unit}
    (hi : Intact start objects s r) (h : on (createBranch name start') r = (result, r')) :
    ∃ t, Intact start objects t r' ∧ Proceeds s t ∧ (result = .ok () →
      ∃ full, RefName.branch? name = some full ∧ t.head = .branch full) := by
  rw [on_createBranch hi.store?] at h
  split at h
  · cases h
    exact ⟨s, hi, .refl, fun hok => nomatch hok⟩
  · rename_i n htip
    split at h
    · cases h
      exact ⟨s, hi, .refl, fun hok => nomatch hok⟩
    · rename_i u hu
      obtain ⟨full, -, -, heq⟩ := Store.createBranch?_eq_some hu
      have hn : n < s.history.commits.size := hi.sound.tip?_lt (tipOf_eq_ok.1 htip)
      have hcreated : Intact start objects u (r.withStore u) := by
        rw [heq]
        exact hi.setTip hn full
      have hproceeds : Proceeds s u :=
        ⟨Store.keeps_createBranch hu, by rw [heq, Store.setTip_tags]⟩
      obtain ⟨t, ht, hst, hhead⟩ := hcreated.checkout h
      exact ⟨t, ht, hproceeds.trans hst, hhead⟩

/-! ### Commits -/

/-- The commit at the tip of the branch that is checked out has a message and a tree of the name of a
snapshot, and was made at a time. -/
def HasCommitted (i : Identity) (message time full : String) (tree : Snapshot) (t : Store) : Prop :=
  ∃ n c signature, t.branches.lookup full = some n ∧ t.history.get? n = some c ∧
    c.message = message ∧ c.snapshot.id = tree.id ∧ signatureAt i time = .ok signature ∧
    c.signature.text = signature.text

theorem Intact.commit? (hi : Intact start objects s r) (hdistinct : Distinct objects)
    (hparents : ∀ p ∈ c.parents, p < s.history.commits.size) (hout : Outside c.snapshot)
    (hobject : s.history.encode c ∈ objects) {id : String} (h : s.commit? c = some (id, t)) :
    Intact start objects t (r.withStore t) ∧ Proceeds s t ∧
      ∀ full, s.head = .branch full → t.head = s.head ∧ ∃ n d, t.branches.lookup full = some n ∧
        t.history.get? n = some d ∧ History.Alike c d := by
  obtain ⟨n, d, hget, halike, hsound, hkeeps, htags, hindex, hold, hhead⟩ :=
    Store.commit?_spec hi.sound hdistinct hparents hobject h
  have hintact : Intact start objects t (r.withStore t) := by
    apply hi.withStore hsound
    · intro m e hm
      rcases hold m e hm with hm | rfl
      · exact hi.snapshots m e hm
      · exact hout
    · rw [hindex]
      exact hi.index
  refine ⟨hintact, ⟨hkeeps, htags⟩, ?_⟩
  intro full hfull
  obtain ⟨hsame, htip⟩ := hhead full hfull
  exact ⟨hsame, n, d, htip, hget, halike⟩

theorem commitObject_eq_ok {i : Identity} (h : commitObject i s snapshot message time = .ok c) :
    ∃ signature parent, signatureAt i time = .ok signature ∧ s.headCommit = .ok parent ∧
      c = ⟨snapshot, parent.toList, signature, message⟩ := by
  obtain ⟨signature, hsignature, h⟩ := Except.bind_eq_ok.1 h
  obtain ⟨parent, hparent, h⟩ := Except.bind_eq_ok.1 h
  exact ⟨signature, parent, hsignature, hparent, Except.pure_eq_ok.1 h⟩

theorem commitObject_parents_lt {i : Identity} (hs : s.Sound objects)
    (h : commitObject i s snapshot message time = .ok c) :
    ∀ p ∈ c.parents, p < s.history.commits.size := by
  obtain ⟨signature, parent, -, hparent, rfl⟩ := commitObject_eq_ok h
  intro p hp
  have hp : parent = some p := Option.mem_toList.1 hp
  rw [hp] at hparent
  exact hs.headCommit_lt hparent

theorem mergeObject_eq_ok [Git.Merger] {commit : Commit}
    (h : mergeObject r s branch commit = .ok c) :
    ∃ current ours theirs signature, currentOf s = .ok current ∧ s.tip? current = some ours ∧
      s.tip? branch = some theirs ∧ (r.merged s ours theirs).conflicts = [] ∧
      signatureAt r.identity commit.datetime = .ok signature ∧
      c = ⟨(r.merged s ours theirs).snapshot, [ours, theirs], signature, commit.message⟩ := by
  obtain ⟨current, hcurrent, h⟩ := Except.bind_eq_ok.1 h
  obtain ⟨ours, hours, h⟩ := Except.bind_eq_ok.1 h
  obtain ⟨theirs, htheirs, h⟩ := Except.bind_eq_ok.1 h
  dsimp only at h
  split at h
  · cases h
  · rename_i hclean
    rw [Bool.not_eq_true', Bool.not_eq_false, List.isEmpty_iff] at hclean
    obtain ⟨signature, hsignature, h⟩ := Except.bind_eq_ok.1 h
    exact ⟨current, ours, theirs, signature, hcurrent, tipOf_eq_ok.1 hours, tipOf_eq_ok.1 htheirs,
      hclean, hsignature, Except.pure_eq_ok.1 h⟩

theorem mergeObject_parents_lt [Git.Merger] {commit : Commit} (hs : s.Sound objects)
    (h : mergeObject r s branch commit = .ok c) : ∀ p ∈ c.parents, p < s.history.commits.size := by
  obtain ⟨current, ours, theirs, signature, -, hours, htheirs, -, -, rfl⟩ := mergeObject_eq_ok h
  intro p hp
  rcases List.mem_cons.1 hp with rfl | hp
  · exact hs.tip?_lt hours
  · rw [List.mem_singleton.1 hp]
    exact hs.tip?_lt htheirs

theorem outside_stagedFiles (hi : Intact start objects s r) (h : r.stagedFiles s = some snapshot) :
    Outside snapshot := by
  obtain ⟨files, hfiles, rfl⟩ := Option.map_eq_some_iff.1 h
  exact outside_ofList_staged hi.holding.slashless hfiles

/-- The commit that a call offers to the store, if it comes to that. -/
def offered? [Git.Merger] (r : Repository) (call : WorkTree.Call) : Option Encoded :=
  r.store?.bind fun s =>
    (match call with
      | .commit message time => (r.stagedFiles s).bind fun index =>
        (commitObject r.identity s index message time).toOption
      | .merge branch (.withCommit c) => (mergeObject r s branch c).toOption
      | _ => none).map s.history.encode

theorem encode_mem_of_commit [Git.Merger] (hs : r.store? = some s)
    (hindex : r.stagedFiles s = some snapshot)
    (hobject : commitObject r.identity s snapshot message time = .ok c)
    (hoffered : ∀ e ∈ r.offered? (.commit message time), e ∈ objects) :
    s.history.encode c ∈ objects := by
  apply hoffered
  simp [offered?, hs, hindex, hobject, Except.toOption]

theorem encode_mem_of_merge [Git.Merger] {commit : Commit} (hs : r.store? = some s)
    (hobject : mergeObject r s branch commit = .ok c)
    (hoffered : ∀ e ∈ r.offered? (.merge branch (.withCommit commit)), e ∈ objects) :
    s.history.encode c ∈ objects := by
  apply hoffered
  simp [offered?, hs, hobject, Except.toOption]

theorem Intact.commit [Git.Merger] {result : Except Fault String} (hi : Intact start objects s r)
    (hdistinct : Distinct objects) (hoffered : ∀ e ∈ r.offered? (.commit message time), e ∈ objects)
    (h : on (commit message time) r = (result, r')) :
    ∃ t, Intact start objects t r' ∧ Proceeds s t ∧ ∀ full, s.head = .branch full →
      t.head = s.head ∧ (∀ id, result = .ok id → ∃ tree, r.stagedFiles s = some tree ∧
        HasCommitted start.identity message time full tree t) := by
  rw [on_commit hi.store?] at h
  split at h
  · cases h
    exact ⟨s, hi, .refl, fun full _ => ⟨rfl, fun id hok => nomatch hok⟩⟩
  · rename_i index hindex
    have hout := outside_stagedFiles hi hindex
    have hstaged := hi.atHead s.head hout
    have hindexed : Proceeds s { s with index := index } := proceeds_of_same rfl rfl rfl
    split at h
    · cases h
      exact ⟨_, hstaged, hindexed, fun full _ => ⟨rfl, fun id hok => nomatch hok⟩⟩
    · rename_i object hobject
      have hmem := encode_mem_of_commit hi.store? hindex hobject hoffered
      have hparents := commitObject_parents_lt hi.sound hobject
      obtain ⟨signature, parent, hsignature, -, rfl⟩ := commitObject_eq_ok hobject
      rw [on_addCommit hstaged.store?] at h
      split at h
      · rename_i id t hcommit
        cases h
        obtain ⟨ht, hproceeds, hhead⟩ := hstaged.commit? hdistinct hparents hout hmem hcommit
        refine ⟨t, ht, hindexed.trans hproceeds, ?_⟩
        intro full hfull
        obtain ⟨hsame, n, d, htip, hget, halike⟩ := hhead full hfull
        rw [hi.identity] at hsignature
        exact ⟨hsame, fun _ _ => ⟨index, hindex, n, d, signature, htip, hget, halike.message.symm,
          halike.snapshot.symm, hsignature, halike.signature.symm⟩⟩
      · cases h
        exact ⟨_, hstaged, hindexed, fun full _ => ⟨rfl, fun id hok => nomatch hok⟩⟩

/-! ### Merges and tags -/

theorem Intact.fastForward [Git.Merger] {result : Except Fault Unit} (hi : Intact start objects s r)
    (h : on (merge branch .fastForward) r = (result, r')) :
    ∃ t, Intact start objects t r' ∧ Proceeds s t ∧ t.head = s.head := by
  have hsame : Intact start objects s r ∧ Proceeds s s ∧ s.head = s.head := ⟨hi, .refl, rfl⟩
  rw [on_fastForward hi.store?] at h
  split at h
  · cases h
    exact ⟨s, hsame⟩
  · rename_i current _
    split at h
    · cases h
      exact ⟨s, hsame⟩
    · cases h
      exact ⟨s, hsame⟩
    · rename_i ours theirs hours htheirs
      split_ifs at h with hequal hforward
      · cases h
        exact ⟨s, hsame⟩
      · cases h
        exact ⟨s, hsame⟩
      · have hancestor := ((History.isAncestor_iff hi.sound.history).1 (by simpa using hforward)).2
        cases hname : RefName.branch? current with
        | none =>
          rw [hname] at h
          cases h
          exact ⟨s, hsame⟩
        | some full =>
          rw [hname] at h
          have hours := tipOf_eq_ok.1 hours
          have htip : s.branches.lookup full = some ours := by
            rwa [Store.tip?, hname, Option.bind_some] at hours
          have hmoved := hi.setTip (hi.sound.tip?_lt (tipOf_eq_ok.1 htheirs)) full
          have hproceeds : Proceeds s (s.setTip full theirs) := by
            refine ⟨Store.keeps_setTip ?_, Store.setTip_tags s full theirs⟩
            intro m hm
            rw [htip] at hm
            cases hm
            exact hancestor
          obtain ⟨t, ht, hst, hhead⟩ := hmoved.checkoutHead h
          exact ⟨t, ht, hproceeds.trans hst, hhead.trans (Store.setTip_head s full theirs)⟩

theorem Intact.mergeWithCommit [Git.Merger] [Git.LawfulMerger] {commit : Commit}
    {result : Except Fault Unit} (hi : Intact start objects s r) (hdistinct : Distinct objects)
    (hoffered : ∀ e ∈ r.offered? (.merge branch (.withCommit commit)), e ∈ objects)
    (h : on (merge branch (.withCommit commit)) r = (result, r')) :
    ∃ t, Intact start objects t r' ∧ Proceeds s t ∧
      ∀ full, s.head = .branch full → t.head = s.head := by
  rw [on_mergeWithCommit hi.store?] at h
  split at h
  · cases h
    exact ⟨s, hi, .refl, fun _ _ => rfl⟩
  · rename_i object hobject
    have hmem := encode_mem_of_merge hi.store? hobject hoffered
    have hparents := mergeObject_parents_lt hi.sound hobject
    obtain ⟨current, ours, theirs, signature, -, -, -, hclean, -, rfl⟩ := mergeObject_eq_ok hobject
    have hout : Outside (r.merged s ours theirs).snapshot :=
      Merger.without_merge hclean (hi.outside ours) (hi.outside theirs)
    split at h
    · cases h
      exact ⟨s, hi, .refl, fun _ _ => rfl⟩
    · rename_i id t hcommit
      obtain ⟨ht, hproceeds, hhead⟩ := hi.commit? hdistinct hparents hout hmem hcommit
      obtain ⟨u, hu, htu, hsame⟩ := ht.checkoutHead h
      exact ⟨u, hu, hproceeds.trans htu, fun full hfull => hsame.trans (hhead full hfull).1⟩

/-- A tag that is made is a new one, at the commit that is checked out. -/
theorem Intact.tag {result : Except Fault Unit} (hi : Intact start objects s r)
    (h : on (tag name message time) r = (result, r')) :
    ∃ t, Intact start objects t r' ∧ s.Keeps t ∧ t.head = s.head ∧ t.branches = s.branches ∧
      t.history = s.history ∧ (result = .ok () → ∃ full n signature,
        s.headCommit = .ok (some n) ∧ RefName.tag? name = some full ∧
        signatureAt start.identity time = .ok signature ∧ s.tags.lookup full = none ∧
        t.tags = (full, ⟨name, n, signature, message⟩) :: s.tags) := by
  rw [on_tag hi.store?] at h
  split at h
  · cases h
    exact ⟨s, hi, .refl, rfl, rfl, rfl, fun hok => nomatch hok⟩
  · cases h
    exact ⟨s, hi, .refl, rfl, rfl, rfl, fun hok => nomatch hok⟩
  · rename_i n hn
    split at h
    · cases h
      exact ⟨s, hi, .refl, rfl, rfl, rfl, fun hok => nomatch hok⟩
    · rename_i signature hsignature
      split at h
      · cases h
        exact ⟨s, hi, .refl, rfl, rfl, rfl, fun hok => nomatch hok⟩
      · split at h
        · cases h
          exact ⟨s, hi, .refl, rfl, rfl, rfl, fun hok => nomatch hok⟩
        · rename_i t ht
          cases h
          obtain ⟨full, hfull, hnone, rfl⟩ := Store.createTag?_eq_some ht
          have hsound := hi.sound.createTag (hi.sound.headCommit_lt hn) ht
          rw [hi.identity] at hsignature
          exact ⟨_, hi.withStore hsound hi.snapshots hi.index, Store.keeps_createTag ht, rfl, rfl, rfl,
            fun _ => ⟨full, n, signature, hn, hfull, hsignature, hnone, rfl⟩⟩

/-! ### Runs -/

/-- A path that does not lead into the store of a repository. -/
def KeepsOut (start : Repository) (path : String) : Prop :=
  ∀ l, start.files.destination? start.root path = some l → ¬storeLocation start.root <+: l

theorem Intact.writeText [Git.Merger] {result : Except Fault Unit} (hi : Intact start objects s r)
    (hpath : start.KeepsOut path)
    (h : on (WorkTree.writeText path text) r = (result, r')) : Intact start objects s r' := by
  have hwrite : on (onFiles fun root => FileTree.writeText root path text) r = (result, r') := h
  rw [on_onFiles] at hwrite
  obtain ⟨-, rfl⟩ := Prod.mk.inj hwrite
  have houtside : ∀ l, r.files.destination? start.root path = some l →
      ¬storeLocation start.root <+: l := by
    intro l hl
    rw [FileTree.destination?_congr hi.holding.mount_eq] at hl
    exact hpath l hl
  apply hi.withFiles
  rw [hi.root]
  exact hi.holding.writeText hi.named houtside (on_eq (FileTree.writeText start.root path text) _)

theorem on_tags [Git.Merger] (hs : r.store? = some s) : on WorkTree.tags r =
    (.ok s.tagNames, r) := by
  simp only [WorkTree.tags, on_bind, on_store hs, on_pure]

theorem on_log [Git.Merger] (hs : r.store? = some s) (branch : String) :
    on (WorkTree.log branch) r = ((tipOf s branch).map s.history.log, r) := by
  simp only [WorkTree.log, log, on_bind, on_tip hs]
  cases tipOf s branch with
  | error e => rfl
  | ok n =>
    dsimp only
    rw [on_store hs]
    rfl

theorem Intact.after [Git.Merger] [Git.LawfulMerger] {call : WorkTree.Call}
    (hi : Intact start objects s r) (hdistinct : Distinct objects)
    (hpath : ∀ path text, call = .writeText path text → start.KeepsOut path)
    (hoffered : ∀ e ∈ r.offered? call, e ∈ objects) :
    ∃ t, Intact start objects t (call.after r) ∧ s.Keeps t := by
  by_cases hasks : call.Asks
  · rw [after_of_asks hasks]
    exact ⟨s, hi, .refl⟩
  cases call with
  | createBranch name base =>
    obtain ⟨t, ht, hst, -⟩ := hi.createBranch (on_eq (Repository.createBranch name base) r)
    exact ⟨t, ht, hst.keeps⟩
  | checkout name =>
    obtain ⟨t, ht, hst, -⟩ := hi.checkout (on_eq (Repository.checkout name) r)
    exact ⟨t, ht, hst.keeps⟩
  | writeText path text =>
    exact ⟨s, hi.writeText (hpath path text rfl) (on_eq (WorkTree.writeText path text) r), .refl⟩
  | commit message time =>
    obtain ⟨t, ht, hst, -⟩ := hi.commit hdistinct hoffered (on_eq (Repository.commit message time) r)
    exact ⟨t, ht, hst.keeps⟩
  | merge branch mode =>
    cases mode with
    | fastForward =>
      obtain ⟨t, ht, hst, -⟩ := hi.fastForward (on_eq (merge branch .fastForward) r)
      exact ⟨t, ht, hst.keeps⟩
    | withCommit commit =>
      obtain ⟨t, ht, hst, -⟩ := hi.mergeWithCommit hdistinct hoffered
        (on_eq (merge branch (.withCommit commit)) r)
      exact ⟨t, ht, hst.keeps⟩
  | tag name message time =>
    obtain ⟨t, ht, hst, -⟩ := hi.tag (on_eq (Repository.tag name message time) r)
    exact ⟨t, ht, hst⟩
  | _ => exact absurd trivial hasks

/-- The commits that are offered to the store in a run. -/
def written [Git.Merger] (r : Repository) : List WorkTree.Call → List Encoded
  | [] => []
  | call :: calls => (r.offered? call).toList ++ written (call.after r) calls

theorem Intact.afterAll [Git.Merger] [Git.LawfulMerger] {calls : List WorkTree.Call}
    (hi : Intact start objects s r) (hdistinct : Distinct objects)
    (hpaths : ∀ path text, .writeText path text ∈ calls → start.KeepsOut path)
    (hwritten : ∀ e ∈ r.written calls, e ∈ objects) :
    ∃ t, Intact start objects t (WorkTree.after r calls) ∧ s.Keeps t := by
  induction calls generalizing r s with
  | nil => exact ⟨s, hi, .refl⟩
  | cons call calls ih =>
    have hfirst : ∀ path text, call = .writeText path text → start.KeepsOut path := by
      intro path text hcall
      exact hpaths path text (by rw [hcall]; exact List.mem_cons_self ..)
    have hoffered : ∀ e ∈ r.offered? call, e ∈ objects := by
      intro e he
      exact hwritten e (List.mem_append_left _ (Option.mem_toList.2 he))
    obtain ⟨t, ht, hst⟩ := hi.after hdistinct hfirst hoffered
    have hrest : ∀ path text, .writeText path text ∈ calls → start.KeepsOut path :=
      fun path text hmem => hpaths path text (List.mem_cons_of_mem call hmem)
    have hlater : ∀ e ∈ (call.after r).written calls, e ∈ objects :=
      fun e he => hwritten e (List.mem_append_right _ he)
    obtain ⟨u, hu, htu⟩ := ih ht hrest hlater
    exact ⟨u, hu, hst.trans htu⟩

/-! ### New repositories -/

theorem create_eq_ok {t u : FileTree} {base : Location} {path : String} {i : Identity}
    (h : on (create base path i) t = (.ok r, u)) :
    ∃ v, on (FileTree.createDirectory base path) t = (.ok r.root, v) ∧ r.identity = i ∧
      r.files = u ∧ (u = v ∨ u = v.put (storeLocation r.root) (.store (.new mainBranch))) := by
  have hopened : ∀ root w, opened i root w = (.ok r, u) → r = ⟨u, root, i⟩ ∧ u = w := by
    intro root w hw
    unfold opened at hw
    split at hw
    · cases hw
    · cases hw
      exact ⟨rfl, rfl⟩
  rw [on_create] at h
  split at h
  · cases h
  · rename_i root v hdirectory
    split at h
    · cases h
    · obtain ⟨rfl, rfl⟩ := hopened _ _ h
      exact ⟨u, hdirectory, rfl, rfl, .inl rfl⟩
    · obtain ⟨rfl, rfl⟩ := hopened _ _ h
      exact ⟨v, hdirectory, rfl, rfl, .inr rfl⟩

theorem intact_create {t u : FileTree} {base : Location} {path : String} {i : Identity}
    (ht : t.Slashless) (hbase : Named base) (hcreate : on (create base path i) t = (.ok r, u))
    (hnew : r.store? = some (.new mainBranch)) (objects : List Encoded) :
    Intact r objects (.new mainBranch) r := by
  obtain ⟨v, hdirectory, -, hfiles, hu⟩ := create_eq_ok hcreate
  obtain ⟨hv, hroot⟩ := FileTree.named_createDirectory ht hbase hdirectory
  have hslashless : r.files.Slashless := by
    rw [hfiles]
    rcases hu with rfl | rfl
    · exact hv
    · apply hv.put
      rw [storeLocation, FileTree.named_append]
      refine ⟨hroot, fun part hpart => ?_⟩
      rw [List.mem_singleton.1 hpart]
      decide
  exact ⟨rfl, rfl, hroot, ⟨storeAt?_eq_some.1 hnew, hslashless, rfl⟩,
    Store.sound_new objects mainBranch, fun _ _ hc => (by cases hc),
    fun _ hentry => absurd hentry List.not_mem_nil⟩

/-! ### Repositories without files -/

/-- A repository without files. -/
def Bare (r : Repository) : Prop :=
  ∀ entry ∈ r.files.entries, entry.1 = storeLocation r.root ∨ entry.1 = r.root

theorem Bare.stagedFiles (hr : r.Bare) (s : Store) : r.stagedFiles s = some [] := by
  have hnames : ∀ n ∈ r.files.names (r.root ++ []), isStoreName n = true := by
    intro n hn
    rw [List.append_nil] at hn
    obtain ⟨e, he⟩ := mem_names hn
    rcases hr _ he with heq | heq
    · rw [storeLocation, List.append_cancel_left_eq, List.cons.injEq] at heq
      rw [heq.1]
      decide
    · simp at heq
  have hstore : ∀ n ∈ r.files.names (r.root ++ []), isStoreName n = false →
      ∃ text, r.files.get? (r.root ++ ([] ++ [n])) = some (.text text) := by
    intro n hn hno
    rw [hnames n hn] at hno
    cases hno
  obtain ⟨files, hfiles, hpaths⟩ := staged_of_files hstore
  have hempty : files = [] := by
    apply List.eq_nil_iff_forall_not_mem.2
    intro entry hentry
    obtain ⟨n, hn, hno, -⟩ := hpaths entry hentry
    rw [hnames n hn] at hno
    cases hno
  rw [Repository.stagedFiles, hfiles, hempty]
  rfl

def fresh : Repository :=
  ⟨⟨"/work", [(["repo", FileTree.storeName], .store (.new mainBranch)), (["repo"], .directory)]⟩,
    ["repo"], ⟨"Ada", "ada@example.com"⟩⟩

theorem on_createDirectory_new : on (FileTree.createDirectory [] "repo") (.new "/work") =
    (.ok ["repo"], ⟨"/work", [(["repo"], .directory)]⟩) := by
  have horigin : (FileTree.new "/work").origin? [] "repo" = some ([], ["repo"]) := by decide +kernel
  have hstep : (FileTree.new "/work").step? [] "repo" = some ["repo"] := by decide
  have hget : (FileTree.new "/work").get? ["repo"] = none := rfl
  rw [FileTree.on_createDirectory horigin (by decide), FileTree.on_createDirectories_cons, hstep]
  simp only [hget]
  rfl

theorem on_create_fresh :
    on (create [] "repo" ⟨"Ada", "ada@example.com"⟩) (.new "/work") = (.ok fresh, fresh.files) := by
  rw [on_create, on_createDirectory_new]
  rfl

theorem bare_fresh : fresh.Bare := by
  intro entry hentry
  simp only [fresh, List.mem_cons, List.not_mem_nil, or_false] at hentry
  rcases hentry with rfl | rfl
  · exact .inl rfl
  · exact .inr rfl

section

attribute [local instance] Git.Merger.builtIn

theorem written_fresh : fresh.written [.commit "start" "2024-01-01T00:00:00Z",
      .tag "v1.0.0" "v1.0.0" "2024-01-01T00:00:01Z", .createBranch "dev" "main"] =
    [CommitObject.encode ⟨[], [], ⟨"Ada", "ada@example.com", 1704067200, 0⟩, "start"⟩ []] := by
  have hobject : commitObject fresh.identity (.new mainBranch) [] "start" "2024-01-01T00:00:00Z" =
      .ok ⟨[], [], ⟨"Ada", "ada@example.com", 1704067200, 0⟩, "start"⟩ := rfl
  have hstore : fresh.store? = some (.new mainBranch) := rfl
  have hquiet : ∀ r : Repository, r.offered? (.tag "v1.0.0" "v1.0.0" "2024-01-01T00:00:01Z") = none ∧
      r.offered? (.createBranch "dev" "main") = none := by
    intro r
    unfold offered?
    cases r.store? <;> exact ⟨rfl, rfl⟩
  simp only [written, (hquiet _).1, (hquiet _).2]
  rw [offered?, hstore, Option.bind_some, bare_fresh.stagedFiles]
  simp only [Option.bind_some, hobject]
  rfl

end

/-! ### What is kept -/

theorem written_append [Git.Merger] (r : Repository) (calls more : List WorkTree.Call) :
    r.written (calls ++ more) = r.written calls ++ (WorkTree.after r calls).written more := by
  induction calls generalizing r with
  | nil => rfl
  | cons call calls ih =>
    rw [List.cons_append, written, written, ih, List.append_assoc]
    rfl

/-- In a run on a new repository that writes no files into the store, no call loses anything, whether
it succeeds or is refused: branches are at their old tips or at descendants, tags and commits are what
they were. -/
theorem keeps_after_call [Git.Merger] [Git.LawfulMerger] {t u : FileTree} {base : Location}
    {path : String} {i : Identity} (ht : t.Slashless) (hbase : Named base)
    (hcreate : on (create base path i) t = (.ok r, u)) (hnew : r.store? = some (.new mainBranch))
    (calls : List WorkTree.Call) (call : WorkTree.Call)
    (hpaths : ∀ path text, .writeText path text ∈ calls ++ [call] → r.KeepsOut path)
    (hdistinct : Distinct (r.written (calls ++ [call]))) :
    ∃ s s', (WorkTree.after r calls).store? = some s ∧
      (WorkTree.after r (calls ++ [call])).store? = some s' ∧ s.history.Extends s'.history ∧
      (∀ name n, s.branches.lookup name = some n →
        ∃ m, s'.branches.lookup name = some m ∧ s'.history.Ancestor n m) ∧
      ∀ name tag, s.tags.lookup name = some tag → s'.tags.lookup name = some tag := by
  have hstart := intact_create ht hbase hcreate hnew (r.written (calls ++ [call]))
  have hbefore : ∀ path text, .writeText path text ∈ calls → r.KeepsOut path :=
    fun path text hmem => hpaths path text (List.mem_append_left _ hmem)
  have hcall : ∀ path text, call = .writeText path text → r.KeepsOut path :=
    fun path text heq => hpaths path text (by simp [heq])
  have hwritten := written_append r calls [call]
  obtain ⟨s, hs, -⟩ := hstart.afterAll hdistinct hbefore
    (fun e he => by rw [hwritten]; exact List.mem_append_left _ he)
  obtain ⟨s', hs', hkeeps⟩ := hs.after hdistinct hcall
    (fun e he => by rw [hwritten]; exact List.mem_append_right _ (by simpa [written] using he))
  rw [← WorkTree.after_concat] at hs'
  exact ⟨s, s', hs.store?, hs'.store?, hkeeps.history, hkeeps.branches, hkeeps.tags⟩

section

attribute [local instance] Git.Merger.builtIn Git.Merger.lawful_builtIn

/-- A commit, a tag on it and a new branch, in a new repository. -/
theorem keeps_after_createBranch :
    (FileTree.new "/work").Slashless ∧ Named [] ∧
      on (create [] "repo" ⟨"Ada", "ada@example.com"⟩) (.new "/work") = (.ok fresh, fresh.files) ∧
      fresh.store? = some (.new mainBranch) ∧
      ∃ s s', (WorkTree.after fresh [.commit "start" "2024-01-01T00:00:00Z",
          .tag "v1.0.0" "v1.0.0" "2024-01-01T00:00:01Z"]).store? = some s ∧
        (WorkTree.after fresh ([.commit "start" "2024-01-01T00:00:00Z",
          .tag "v1.0.0" "v1.0.0" "2024-01-01T00:00:01Z"] ++
            [.createBranch "dev" "main"])).store? = some s' ∧ s.history.Extends s'.history ∧
        (∀ name n, s.branches.lookup name = some n →
          ∃ m, s'.branches.lookup name = some m ∧ s'.history.Ancestor n m) ∧
        ∀ name tag, s.tags.lookup name = some tag → s'.tags.lookup name = some tag := by
  have hslashless := FileTree.slashless_new "/work"
  refine ⟨hslashless, FileTree.named_nil, on_create_fresh, rfl, ?_⟩
  apply keeps_after_call hslashless FileTree.named_nil on_create_fresh rfl
  · intro path text hmem
    simp at hmem
  · rw [List.cons_append, List.cons_append, List.nil_append, written_fresh]
    intro a ha b hb _
    rw [List.mem_singleton.1 ha, List.mem_singleton.1 hb]

end

end ReleaseHistory.Repository
