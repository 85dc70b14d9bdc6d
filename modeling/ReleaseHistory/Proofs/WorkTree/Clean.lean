import ReleaseHistory.Proofs.Git.BranchName
import ReleaseHistory.Proofs.WorkTree.Placed
import ReleaseHistory.Proofs.WorkTree.Ready
import ReleaseHistory.Proofs.WorkTree.Shown

/-!
# Work trees without changes

A work tree is clean if what is staged is the commit that is checked out and its files lie there. A
commit, a checkout and a merge leave it clean, whatever it was before. Writing a file keeps it clean
but for what the path of the file leads to.
-/

namespace ReleaseHistory

open Operation Git

namespace Repository

open FileTree (Lies)

variable {start r r' : Repository} {objects : List Encoded} {s t : Store} {loose more : List String}
  {name message time path text full branch : String} {n : Nat} {α : Type} {snapshot : Snapshot}

/-! ### Places -/

theorem Placed.of_stores (hp : Placed start r) (hi : Intact start objects t r')
    (h : r'.files.StoresIn fun l => start.root <+: l → l = storeLocation start.root) :
    Placed start r' :=
  ⟨hi.root, hp.named, hi.holding.mount_eq, h⟩

theorem Placed.confined (hp : Placed start r) :
    Confined (fun l => start.root <+: l → l = storeLocation start.root) r :=
  ⟨fun _ => by rw [hp.root], hp.stores⟩

/-! ### Clean work trees -/

/-- A work tree whose files are those of the commit that is checked out, but for those that some
paths lead to. -/
structure Clean (start : Repository) (loose : List String) (s : Store) (r : Repository) : Prop where
  index : s.index = s.headSnapshot
  lies : ∀ entry ∈ s.index, (∀ path ∈ loose, ¬start.LeadsTo path (Text.splitOn '/' entry.1)) →
    Lies r.files start.root (Text.splitOn '/' entry.1) entry.2

theorem Clean.mono (h : Clean start loose s r) (hsub : loose ⊆ more) : Clean start more s r where
  index := h.index
  lies := fun entry hentry hout => h.lies entry hentry fun path hpath => hout path (hsub hpath)

theorem Clean.of_shows (hindex : s.index = s.headSnapshot) (h : Shows r.files start.root s.index) :
    Clean start loose s r where
  index := hindex
  lies := fun entry hentry _ => h entry hentry

theorem Clean.withStore (h : Clean start loose s r) (hi : Intact start objects s r)
    (hindex : t.index = s.index) (hhead : t.headSnapshot = s.headSnapshot) :
    Clean start loose t (r.withStore t) where
  index := by rw [hindex, hhead, h.index]
  lies := by
    intro entry hentry helsewhere
    rw [hindex] at hentry
    rw [← hi.root]
    refine Lies.put ?_ (hi.index.not_begins hentry) (.store t)
    rw [hi.root]
    exact h.lies entry hentry helsewhere

theorem Clean.writeText [Git.Merger] (h : Clean start loose s r) (hi : Intact start objects s r)
    (hp : Placed start r) (hon : on (WorkTree.writeText path text) r = (.ok (), r')) :
    Clean start (path :: loose) s r' where
  index := h.index
  lies := by
    intro entry hentry helsewhere
    obtain ⟨hpath, hloose⟩ := List.forall_mem_cons.1 helsewhere
    have hout : ¬storeLocation start.root <+: start.root ++ Text.splitOn '/' entry.1 := by
      rw [storeLocation, List.prefix_append_right_inj]
      exact hi.index.not_begins hentry
    exact hp.keeps hon (h.lies entry hentry hloose) (Text.splitOn_ne_nil '/' entry.1) hout hpath

/-- A path that is committed or staged and that does not lead to the file of the commit that is
checked out. -/
def Changed (r : Repository) (s : Store) (path : String) : Prop :=
  path ∈ (s.headSnapshot ++ s.index).map (·.1) ∧
    r.files.get? (r.root ++ Text.splitOn '/' path) ≠ (s.headSnapshot.get? path).map .text

theorem Clean.exists_leadsTo (h : Clean start loose s r) (hroot : r.root = start.root)
    (hchanged : r.Changed s path) : ∃ p ∈ loose, start.LeadsTo p (Text.splitOn '/' path) := by
  obtain ⟨hpath, hdiffers⟩ := hchanged
  by_contra helsewhere
  have hkey : path ∈ s.index.map (·.1) := by
    rw [← h.index, List.map_append, List.mem_append, or_self] at hpath
    exact hpath
  obtain ⟨text, htext⟩ : ∃ text, s.index.get? path = some text :=
    Option.isSome_iff_exists.1 (FileTree.lookup_isSome_of_mem hkey)
  have hlies := h.lies (path, text) (Snapshot.mem_of_get? htext)
    fun p hp hleads => helsewhere ⟨p, hp, hleads⟩
  have hne : start.root ++ Text.splitOn '/' path ≠ [] :=
    List.append_ne_nil_of_right_ne_nil _ (Text.splitOn_ne_nil '/' path)
  rw [hroot, FileTree.get?_of_own? hne hlies.own, ← h.index, htext] at hdiffers
  exact hdiffers rfl

theorem headSnapshot_of_tip (hhead : s.head = .branch full) (hn : s.branches.lookup full = some n) :
    s.headSnapshot = s.history.snapshot n := by
  rw [Store.headSnapshot, Store.headCommit_of_branch hhead hn]

/-! ### Checking out -/

theorem checkoutHead_eq_ok (hs : r.store? = some s) (h : on checkoutHead r = (.ok (), r')) :
    ∃ n, s.headCommit = .ok (some n) ∧ r' = r.showing s (s.history.snapshot n) := by
  rw [on_checkoutHead hs] at h
  split at h
  · cases h
  · cases h
  · rename_i n hn
    cases h
    exact ⟨n, hn, rfl⟩

theorem clean_checkoutHead (hi : Intact start objects s r) (hcoherent : s.history.Coherent)
    (h : on checkoutHead r = (.ok (), r')) :
    ∃ t, r'.store? = some t ∧ t.history = s.history ∧ t.head = s.head ∧ t.branches = s.branches ∧
      Clean start [] t r' := by
  obtain ⟨n, hn, rfl⟩ := checkoutHead_eq_ok hi.store? h
  refine ⟨{ s with index := s.history.snapshot n }, store?_withStore _ _, rfl, rfl, rfl, ?_⟩
  apply Clean.of_shows
  · have hhead : ({ s with index := s.history.snapshot n } : Store).headCommit = s.headCommit := rfl
    rw [Store.headSnapshot, hhead, hn]
  · rw [← hi.root]
    exact shows_showing (hcoherent n) (hi.outside n) r

theorem checkout_eq_ok (hi : Intact start objects s r) (hfull : RefName.branch? name = some full)
    (hn : s.branches.lookup full = some n) (h : on (checkout name) r = (.ok (), r')) :
    r' = (r.showing s (s.history.snapshot n)).withStore
      { s with index := s.history.snapshot n, head := .branch full } := by
  rw [on_checkout hi.store?, headOf?_eq hi.sound, hfull] at h
  split at h
  · cases h
  · rename_i target htarget
    obtain rfl := RefName.resolve_branch hfull hn htarget
    exact (Prod.mk.inj h).2.symm

theorem clean_checkout (hi : Intact start objects s r) (hcoherent : s.history.Coherent)
    (hfull : RefName.branch? name = some full) (hn : s.branches.lookup full = some n)
    (h : on (checkout name) r = (.ok (), r')) :
    ∃ t, r'.store? = some t ∧ t.history = s.history ∧ t.branches = s.branches ∧
      Clean start [] t r' := by
  obtain rfl := checkout_eq_ok hi hfull hn h
  obtain ⟨t, ht⟩ : ∃ t : Store, t = { s with index := s.history.snapshot n, head := .branch full } :=
    ⟨_, rfl⟩
  have hhead : t.head = .branch full := by rw [ht]
  have hlookup : t.branches.lookup full = some n := by rw [ht, hn]
  rw [← ht]
  refine ⟨t, store?_withStore _ _, by rw [ht], by rw [ht], ?_⟩
  apply Clean.of_shows
  · rw [headSnapshot_of_tip hhead hlookup, ht]
  · have hshows := shows_showing (s := s) (hcoherent n) (hi.outside n) r
    have hindex : t.index = s.history.snapshot n := by rw [ht]
    rw [hindex, ← hi.root]
    exact Shows.withStore (r := r.showing s (s.history.snapshot n)) hshows (hi.outside n) t

theorem clean_createBranch {base : String} (hi : Intact start objects s r)
    (hcoherent : s.history.Coherent) (h : on (createBranch name base) r = (.ok (), r')) :
    ∃ t n, r'.store? = some t ∧ t.history = s.history ∧ t.tip? name = some n ∧ Clean start [] t r' := by
  rw [on_createBranch hi.store?] at h
  split at h
  · cases h
  · rename_i n htip
    split at h
    · cases h
    · rename_i u hu
      obtain ⟨full, hfull, -, rfl⟩ := Store.createBranch?_eq_some hu
      have hn : n < s.history.commits.size := hi.sound.tip?_lt (tipOf_eq_ok.1 htip)
      have hcreated := hi.setTip hn full
      have hlookup : (s.setTip full n).branches.lookup full = some n := by
        rw [Store.lookup_setTip, if_pos rfl]
      rw [← Store.setTip_history s full n] at hcoherent
      obtain ⟨t, ht, hhistory, hbranches, hclean⟩ :=
        clean_checkout hcreated hcoherent hfull hlookup h
      refine ⟨t, n, ht, hhistory.trans (Store.setTip_history s full n), ?_, hclean⟩
      rw [Store.tip?, hfull, Option.bind_some, hbranches, hlookup]

/-! ### Commits -/

theorem commit_eq_ok {id : String} (hs : r.store? = some s)
    (h : on (commit message time) r = (.ok id, r')) :
    ∃ index c t, r.stagedFiles s = some index ∧
      commitObject r.identity s index message time = .ok c ∧
      ({ s with index := index } : Store).commit? c = some (id, t) ∧ r' = r.withStore t := by
  rw [on_commit hs] at h
  split at h
  · cases h
  · rename_i index hindex
    split at h
    · cases h
    · rename_i c hc
      rw [on_addCommit (store?_withStore r _)] at h
      split at h
      · rename_i id t ht
        cases h
        exact ⟨index, c, t, hindex, hc, ht, withStore_withStore _ t⟩
      · cases h

/-- A commit leaves a clean work tree, if its tree is the one that was staged and not another one of
the same name. -/
theorem clean_commit [Git.Merger] {id : String} (hi : Intact start objects s r)
    (hdistinct : Distinct objects) (hoffered : ∀ e ∈ r.offered? (.commit message time), e ∈ objects)
    (hcoherent : s.history.Coherent) (hhead : s.head = .branch full)
    (h : on (commit message time) r = (.ok id, r')) :
    ∃ t n c tree, r'.store? = some t ∧ t.history.Coherent ∧ t.branches.lookup full = some n ∧
      t.history.get? n = some c ∧ r.stagedFiles s = some tree ∧ tree.id = c.snapshot.id ∧
      (tree = c.snapshot → Clean start [] t r') := by
  obtain ⟨tree, c, t, htree, hc, hcommit, rfl⟩ := commit_eq_ok hi.store? h
  have hmem := encode_mem_of_commit hi.store? htree hc hoffered
  have hparents := commitObject_parents_lt hi.sound hc
  obtain ⟨signature, parent, -, -, rfl⟩ := commitObject_eq_ok hc
  have hout := outside_stagedFiles hi htree
  obtain ⟨n, d, hget, halike, -, -, -, hindex, hold, htip⟩ :=
    Store.commit?_spec (hi.atHead s.head hout).sound hdistinct hparents hmem hcommit
  obtain ⟨hsame, hn⟩ := htip full hhead
  refine ⟨t, n, d, tree, store?_withStore r t, ?_, hn, hget, htree, halike.snapshot, ?_⟩
  · apply History.coherent_of_cases hcoherent (coherent_stagedFiles hi.holding.slashless htree)
    intro m e hm
    exact (hold m e hm).imp_right fun heq => by rw [heq]
  · intro heq
    apply Clean.of_shows
    · have hsnapshot : t.history.snapshot n = d.snapshot := by rw [History.snapshot, hget]
      rw [hindex, headSnapshot_of_tip (hsame.trans hhead) hn, hsnapshot, ← heq]
    · rw [hindex, ← hi.root]
      exact (shows_stagedFiles hi.holding.slashless htree).withStore hout t

/-! ### Merges and tags -/

theorem clean_mergeWithCommit [Git.Merger] [Git.LawfulMerger] {c : Commit}
    (hi : Intact start objects s r) (hdistinct : Distinct objects)
    (hoffered : ∀ e ∈ r.offered? (.merge branch (.withCommit c)), e ∈ objects)
    (hcoherent : s.history.Coherent) (h : on (merge branch (.withCommit c)) r = (.ok (), r')) :
    ∃ t, r'.store? = some t ∧ t.history.Coherent ∧ Clean start [] t r' := by
  rw [on_mergeWithCommit hi.store?] at h
  split at h
  · cases h
  · rename_i object hobject
    have hmem := encode_mem_of_merge hi.store? hobject hoffered
    have hparents := mergeObject_parents_lt hi.sound hobject
    obtain ⟨current, ours, theirs, signature, -, -, -, hfree, -, rfl⟩ := mergeObject_eq_ok hobject
    have hout : Outside (r.merged s ours theirs).snapshot :=
      Merger.without_merge hfree (hi.outside ours) (hi.outside theirs)
    split at h
    · cases h
    · rename_i id u hcommit
      obtain ⟨-, -, -, -, -, -, -, -, hold, -⟩ :=
        Store.commit?_spec hi.sound hdistinct hparents hmem hcommit
      have hu := (hi.commit? hdistinct hparents hout hmem hcommit).1
      have hmerged : u.history.Coherent := by
        apply History.coherent_of_cases hcoherent
          (LawfulMerger.coherent hfree (hcoherent ours) (hcoherent theirs))
        intro m e hm
        exact (hold m e hm).imp_right fun heq => by rw [heq]; rfl
      obtain ⟨t, ht, hhistory, -, -, hclean⟩ := clean_checkoutHead hu hmerged h
      exact ⟨t, ht, hhistory ▸ hmerged, hclean⟩

theorem clean_fastForward [Git.Merger] (hi : Intact start objects s r)
    (hcoherent : s.history.Coherent) (h : on (merge branch .fastForward) r = (.ok (), r')) :
    r' = r ∨ ∃ t, r'.store? = some t ∧ t.history.Coherent ∧ Clean start [] t r' := by
  rw [on_fastForward hi.store?] at h
  split at h
  · cases h
  · rename_i current _
    split at h
    · cases h
    · cases h
    · rename_i ours theirs hours htheirs
      split_ifs at h
      · cases h
        exact .inl rfl
      · cases h
      · cases hname : RefName.branch? current with
        | none =>
          rw [hname] at h
          cases h
        | some full =>
          rw [hname] at h
          have hmoved := hi.setTip (hi.sound.tip?_lt (tipOf_eq_ok.1 htheirs)) full
          rw [← Store.setTip_history s full theirs] at hcoherent
          obtain ⟨t, ht, hhistory, -, -, hclean⟩ := clean_checkoutHead hmoved hcoherent h
          exact .inr ⟨t, ht, hhistory ▸ hcoherent, hclean⟩

theorem clean_tag (hi : Intact start objects s r) (hhead : s.head = .branch full)
    (hn : s.branches.lookup full = some n) (h : on (tag name message time) r = (.ok (), r')) :
    ∃ t, r'.store? = some t ∧ t.history = s.history ∧
      (Clean start loose s r → Clean start loose t r') := by
  rw [on_tag hi.store?] at h
  split at h
  · cases h
  · cases h
  · split at h
    · cases h
    · split at h
      · cases h
      · split at h
        · cases h
        · rename_i t ht
          cases h
          obtain ⟨key, -, -, rfl⟩ := Store.createTag?_eq_some ht
          refine ⟨_, store?_withStore _ _, rfl, fun hclean => hclean.withStore hi rfl ?_⟩
          rw [headSnapshot_of_tip hhead hn]
          exact headSnapshot_of_tip hhead hn

end Repository

end ReleaseHistory
