import ReleaseHistory.Proofs.Replay.Preservation
import ReleaseHistory.Proofs.Replay.Ready
import ReleaseHistory.Proofs.Replay.Sketch
import ReleaseHistory.Proofs.WorkTree.Shown

/-!
# Repositories that are sketched

A repository that a sketch is of can do what the sketch goes through: names are free where the sketch
finds room for them, and merges have no conflicts, since what is merged is ahead. What it does keeps
it sketched.
-/

namespace ReleaseHistory

open Operation Git Repository
open FileTree (Tidy Plain)
open Sketch (full)

/-- What a sketch says of a repository that is intact and whose directory is tidy. -/
structure Sketched (start : Repository) (objects : List Encoded) (k : Sketch) (s : Store)
    (r : Repository) : Prop where
  intact : Intact start objects s r
  tidy : Tidy r.root r.files
  flat : s.history.Flat
  coherent : s.history.Coherent
  index : s.index.Flat
  head : s.head = .branch (full k.current)
  branches : ∀ key, (s.branches.lookup key).isSome = true ↔ ∃ b ∈ k.branches, key = full b
  plain : ∀ b ∈ k.current :: k.branches, Revision.PlainBranch b
  links : ∀ l ∈ k.links, Sketch.Holds s l
  tags : s.tags.map (·.1) = k.tags

namespace Sketched

variable {start r : Repository} {objects : List Encoded} {k k' : Sketch} {s : Store}
  {name branch source message time : String} {snapshot : Snapshot} {n : Nat} {c : CommitObject}
  {sources : List String}

theorem ready (h : Sketched start objects k s r) : Ready s r where
  store := h.intact.store?
  tidy := h.tidy
  slashless := h.intact.holding.slashless
  named := by rw [h.intact.root]; exact h.intact.named

theorem keepsOut (h : Sketched start objects k s r) (hname : Plain name)
    (hstore : name ≠ FileTree.storeName) : start.KeepsOut name := by
  have hmount := h.tidy.absolute
  rw [h.intact.holding.mount_eq] at hmount
  exact keepsOut_of_plain hmount hname hstore

/-! ### Files -/

theorem withFile [Git.Merger] (h : Sketched start objects k s r) (hname : Plain name)
    (hstore : name ≠ FileTree.storeName) (text : String) :
    Sketched start objects k s (r.withFile name text) :=
  { h with
    intact := h.intact.writeText (h.keepsOut hname hstore) (h.ready.on_writeText hname hstore text)
    tidy := (h.ready.withFile hname hstore text).tidy }

theorem showing (h : Sketched start objects k s r) (hflat : snapshot.Flat) (hout : Outside snapshot) :
    Sketched start objects k { s with index := snapshot } (r.showing s snapshot) := by
  have hbefore : (s.headSnapshot ++ s.index).Flat := by
    intro entry hentry
    rcases List.mem_append.1 hentry with hentry | hentry
    · unfold Store.headSnapshot at hentry
      split at hentry
      · exact h.flat _ entry hentry
      · cases hentry
    · exact h.index entry hentry
  have htidy := tidy_replaceFiles hbefore hflat h.tidy
  exact { h with
    intact := h.intact.showing hout
    tidy := htidy.put (.inl rfl)
    index := hflat }

theorem staged (h : Sketched start objects k s r) (hflat : snapshot.Flat) (hout : Outside snapshot) :
    Sketched start objects k { s with index := snapshot } (r.withStore { s with index := snapshot }) :=
  { h with
    intact := h.intact.atHead s.head hout
    tidy := (h.ready.withStore _).tidy
    index := hflat }

/-! ### Names of branches -/

theorem hasRoom_of_subset {names others : List String} (hsub : ∀ key ∈ names, key ∈ others)
    (hroom : Store.hasRoom name others = true) : Store.hasRoom name names = true := by
  simp only [Store.hasRoom, Bool.not_eq_true', List.any_eq_false] at hroom ⊢
  exact fun key hkey => hroom key (hsub key hkey)

theorem mem_addBranch : branch ∈ k.addBranch name ↔ branch ∈ k.branches ∨ branch = name := by
  unfold Sketch.addBranch
  split
  · rename_i hname
    constructor
    · exact .inl
    · rintro (hmem | rfl)
      · exact hmem
      · exact hname
  · rw [List.mem_append, List.mem_singleton]

theorem exists_tip (h : Sketched start objects k s r) (hbranch : branch ∈ k.branches) :
    ∃ n, s.branches.lookup (full branch) = some n :=
  Option.isSome_iff_exists.1 ((h.branches _).2 ⟨branch, hbranch, rfl⟩)

theorem tip?_eq (h : Revision.PlainBranch branch) : s.tip? branch = s.branches.lookup (full branch) := by
  rw [Store.tip?, h.kept, Option.bind_some]
  rfl

theorem isSome_lookup_setTip (h : Sketched start objects k s r) (key : String) :
    ((s.setTip (full name) n).branches.lookup key).isSome = true ↔
      ∃ b ∈ k.addBranch name, key = full b := by
  rw [Store.lookup_setTip]
  by_cases hkey : key = full name
  · rw [if_pos hkey]
    exact iff_of_true rfl ⟨name, mem_addBranch.2 (.inr rfl), hkey⟩
  · rw [if_neg hkey, h.branches]
    constructor
    · rintro ⟨b, hb, heq⟩
      exact ⟨b, mem_addBranch.2 (.inl hb), heq⟩
    · rintro ⟨b, hb, rfl⟩
      rcases mem_addBranch.1 hb with hb | rfl
      · exact ⟨b, hb, rfl⟩
      · exact absurd rfl hkey

theorem plain_addBranch (h : Sketched start objects k s r) (hname : Revision.PlainBranch name) :
    ∀ b ∈ k.current :: k.addBranch name, Revision.PlainBranch b := by
  intro b hb
  rcases List.mem_cons.1 hb with rfl | hb
  · exact h.plain _ (List.mem_cons_self ..)
  · rcases mem_addBranch.1 hb with hb | rfl
    · exact h.plain _ (List.mem_cons_of_mem _ hb)
    · exact hname

theorem fits (h : Sketched start objects k s r) (hk : k.commit sources = some k') :
    Store.hasRoom (full k.current) ((s.branches.map (·.1)).filter (· ≠ full k.current)) = true := by
  rw [Sketch.commit, Option.ite_none_right_eq_some] at hk
  refine hasRoom_of_subset (fun key hkey => ?_) hk.1
  obtain ⟨hmem, hother⟩ := List.mem_filter.1 hkey
  obtain ⟨b, hb, rfl⟩ := (h.branches key).1 (FileTree.lookup_isSome_of_mem hmem)
  refine List.mem_map.2 ⟨b, List.mem_filter.2 ⟨hb, ?_⟩, rfl⟩
  exact decide_eq_true fun heq => of_decide_eq_true hother (congrArg full heq)

/-! ### Tips -/

/-- A commit moves the branch that is checked out forward. Its parents are in the history after it. -/
theorem exists_moved (h : Sketched start objects k s r) (hdistinct : Distinct objects)
    (hstorable : c.signature.isStorable = true)
    (hparents : ∀ p ∈ c.parents, p < s.history.commits.size)
    (hsources : ∀ b ∈ k.current :: sources, ∀ n, s.branches.lookup (full b) = some n → n ∈ c.parents)
    (hobject : s.history.encode c ∈ objects)
    (hsound : (s.committed (full k.current) c).history.Sound) :
    ∃ n, s.committed (full k.current) c =
        Store.setTip { s with history := (s.committed (full k.current) c).history }
          (full k.current) n ∧
      Sketch.Moved k.current n s (s.committed (full k.current) c) ∧
      ∀ b ∈ k.current :: sources, ∀ m, s.branches.lookup (full b) = some m →
        m ∈ (s.committed (full k.current) c).history.parents n := by
  obtain ⟨n, g, d, hadd, -, hextends, -, hget, halike, -⟩ := History.add_spec h.intact.sound.history
    h.intact.sound.within hdistinct hstorable hparents hobject
  have hhistory : (s.committed (full k.current) c).history = g := by
    rw [Store.committed, Store.setTip_history, hadd]
  have hlookup : ∀ key, (s.committed (full k.current) c).branches.lookup key =
      if key = full k.current then some n else s.branches.lookup key := by
    intro key
    rw [Store.committed, Store.lookup_setTip, hadd]
  have hmember : ∀ b ∈ k.current :: sources, ∀ m, s.branches.lookup (full b) = some m →
      m ∈ (s.committed (full k.current) c).history.parents n := by
    intro b hb m hm
    rw [hhistory, History.parents_eq hget, ← halike.parents]
    exact hsources b hb m hm
  refine ⟨n, ?_, ?_, hmember⟩
  · rw [hhistory, Store.committed, hadd]
  · exact
      { history := by rw [hhistory]; exact hextends
        sound := hsound
        tip := by rw [hlookup, if_pos rfl]
        others := fun other hother => by
          rw [hlookup, if_neg fun heq => hother (Sketch.full_injective heq)]
        forward := fun m hm => .of_parent (hmember k.current (List.mem_cons_self ..) m hm) }

theorem committed (h : Sketched start objects k s r) (hdistinct : Distinct objects)
    (hk : k.commit sources = some k') (hflat : c.snapshot.Flat) (hcoherent : c.snapshot.Coherent)
    (hout : Outside c.snapshot)
    (hstorable : c.signature.isStorable = true) (hmessage : '\x00' ∉ c.message.toList)
    (hparents : ∀ p ∈ c.parents, p < s.history.commits.size)
    (hfirst : c.parents.head? = s.commitOf? (full k.current))
    (hsources : ∀ b ∈ k.current :: sources, ∀ n, s.branches.lookup (full b) = some n → n ∈ c.parents)
    (hobject : s.history.encode c ∈ objects) :
    (∃ id, s.commit? c = some (id, s.committed (full k.current) c)) ∧
      Sketched start objects k' (s.committed (full k.current) c)
        (r.withStore (s.committed (full k.current) c)) := by
  obtain ⟨id, hcommit⟩ :=
    Store.commit?_eq_committed h.head (h.fits hk) hstorable hmessage hfirst
  have hintact := (h.intact.commit? hdistinct hparents hout hobject hcommit).1
  obtain ⟨n, hset, hmoved, hmember⟩ :=
    h.exists_moved hdistinct hstorable hparents hsources hobject hintact.sound.history
  rw [Sketch.commit, Option.ite_none_right_eq_some] at hk
  obtain ⟨-, hk⟩ := hk
  cases hk
  refine ⟨⟨id, hcommit⟩, ?_⟩
  exact
    { intact := hintact
      tidy := (h.ready.withStore _).tidy
      flat := by
        rw [Store.committed, Store.setTip_history]
        exact h.flat.add hflat
      coherent := by
        rw [Store.committed, Store.setTip_history]
        exact h.coherent.add hcoherent
      index := by
        rw [Store.committed, Store.setTip_index]
        exact h.index
      head := by
        rw [Store.committed, Store.setTip_head]
        exact h.head
      branches := fun key => by
        have hsame : ((s.setTip (full k.current) n).branches.lookup key).isSome = true ↔
            ∃ b ∈ k.addBranch k.current, key = full b := isSome_lookup_setTip h key
        rw [hset, Store.lookup_setTip]
        rwa [Store.lookup_setTip] at hsame
      plain := h.plain_addBranch (h.plain k.current (List.mem_cons_self ..))
      links := Sketch.holds_linksAhead hmoved h.links hmember
      tags := by
        rw [Store.committed, Store.setTip_tags]
        exact h.tags }

/-- A branch is moved to the tip of another that comes from it, or made there. -/
theorem movedTip (h : Sketched start objects k s r) (hname : Revision.PlainBranch name)
    (hn : s.branches.lookup (full source) = some n)
    (hforward : ∀ m, s.branches.lookup (full name) = some m → s.history.Ancestor m n) :
    Sketched start objects (k.moveTip name source) (s.setTip (full name) n)
      (r.withStore (s.setTip (full name) n)) := by
  have hsound := h.intact.sound.setTip (h.intact.sound.branches _ n hn) (full name)
  have hmoved : Sketch.Moved name n s (s.setTip (full name) n) :=
    { history := by rw [Store.setTip_history]; exact .refl
      sound := hsound.history
      tip := by rw [Store.lookup_setTip, if_pos rfl]
      others := fun other hother => by
        rw [Store.lookup_setTip, if_neg fun heq => hother (Sketch.full_injective heq)]
      forward := by rw [Store.setTip_history]; exact hforward }
  exact
    { intact := h.intact.setTip (h.intact.sound.branches _ n hn) (full name)
      tidy := (h.ready.withStore _).tidy
      flat := by rw [Store.setTip_history]; exact h.flat
      coherent := by rw [Store.setTip_history]; exact h.coherent
      index := by rw [Store.setTip_index]; exact h.index
      head := by rw [Store.setTip_head]; exact h.head
      branches := isSome_lookup_setTip h
      plain := h.plain_addBranch hname
      links := Sketch.holds_linksAt hmoved h.links hn
      tags := by rw [Store.setTip_tags]; exact h.tags }

/-! ### Checking out -/

theorem exists_checkoutHead (h : Sketched start objects k s r)
    (hn : s.branches.lookup (full k.current) = some n) :
    ∃ t r', on checkoutHead r = (.ok (), r') ∧ Sketched start objects k t r' := by
  refine ⟨_, _, ?_, h.showing (h.flat n) (h.intact.outside n)⟩
  rw [on_checkoutHead h.intact.store?, Store.headCommit_of_branch h.head hn]

theorem exists_checkout (h : Sketched start objects k s r) (hbranch : branch ∈ k.branches) :
    ∃ t r', on (Repository.checkout branch) r = (.ok (), r') ∧
      Sketched start objects { k with current := branch } t r' := by
  obtain ⟨n, hn⟩ := h.exists_tip hbranch
  have hplain := h.plain branch (List.mem_cons_of_mem _ hbranch)
  have hshowing := h.showing (h.flat n) (h.intact.outside n)
  have hhead : headOf? s (RefName.headsPlace ++ branch) = some (.branch (full branch)) := by
    rw [headOf?_eq h.intact.sound, hplain.kept]
    rfl
  have hsketched : Sketched start objects { k with current := branch }
      { s with index := s.history.snapshot n, head := .branch (full branch) }
      ((r.showing s (s.history.snapshot n)).withStore
        { s with index := s.history.snapshot n, head := .branch (full branch) }) :=
    { hshowing with
      intact := hshowing.intact.atHead (.branch (full branch)) (h.intact.outside n)
      tidy := (hshowing.ready.withStore _).tidy
      head := rfl
      plain := fun b hb => by
        rcases List.mem_cons.1 hb with rfl | hb
        · exact hplain
        · exact h.plain b (List.mem_cons_of_mem _ hb) }
  exact ⟨_, _, on_checkout_of_resolve h.intact.store? (hplain.resolve hn) rfl hhead, hsketched⟩

theorem exists_createBranch (h : Sketched start objects k s r) (hk : k.create name source = some k') :
    ∃ t r', on (createBranch name source) r = (.ok (), r') ∧ Sketched start objects k' t r' := by
  rw [Sketch.create, Option.ite_none_right_eq_some] at hk
  obtain ⟨⟨hname, hbegin, hno, hsource, hroom⟩, hk⟩ := hk
  cases hk
  obtain ⟨n, hn⟩ := h.exists_tip hsource
  have hfits : Store.hasRoom (full name) (s.branches.map (·.1)) = true := by
    refine hasRoom_of_subset (fun key hkey => ?_) hroom
    obtain ⟨b, hb, rfl⟩ := (h.branches key).1 (FileTree.lookup_isSome_of_mem hkey)
    exact List.mem_map.2 ⟨b, hb, rfl⟩
  have hcreate : s.createBranch? name n = some (s.setTip (full name) n) := by
    have hfull : RefName.branch? name = some (full name) := hname.kept
    simp only [Store.createBranch?, hfull, hbegin, hfits, decide_eq_true hno, Bool.and_self, if_true]
  have htip : tipOf s source = .ok n := by
    rw [tipOf_eq_ok, tip?_eq (h.plain source (List.mem_cons_of_mem _ hsource))]
    exact hn
  have hmoved := h.movedTip hname hn fun m hm => by
    rw [Store.lookup_eq_none_of_hasRoom hfits] at hm
    cases hm
  obtain ⟨t, r', hon, hsketched⟩ := hmoved.exists_checkout (mem_addBranch.2 (.inr rfl))
  refine ⟨t, r', ?_, hsketched⟩
  rw [on_createBranch h.intact.store?, htip]
  dsimp only
  rw [hcreate]
  exact hon

/-! ### Commits and tags -/

theorem exists_commit [Git.Merger] (h : Sketched start objects k s r) (hdistinct : Distinct objects)
    (hk : k.commit [] = some k') {signature : Signature}
    (hsignature : signatureAt start.identity time = .ok signature)
    (hstorable : signature.isStorable = true) (hmessage : '\x00' ∉ message.toList)
    (hoffered : ∀ e ∈ r.offered? (.commit message time), e ∈ objects) :
    ∃ id t, on (Repository.commit message time) r = (.ok id, r.withStore t) ∧
      Sketched start objects k' t (r.withStore t) ∧
        (t.branches.lookup (full k.current)).isSome = true := by
  rw [← h.intact.identity] at hsignature
  obtain ⟨index, id, hindex, hflat, hobject, hon⟩ :=
    h.ready.exists_commit h.head (h.fits hk) hsignature hstorable hmessage
  have hmem := encode_mem_of_commit h.intact.store? hindex hobject hoffered
  have hcoherent := coherent_stagedFiles h.intact.holding.slashless hindex
  have hout := outside_stagedFiles h.intact hindex
  have hparents := commitObject_parents_lt h.intact.sound hobject
  have hsources : ∀ b ∈ [k.current], ∀ n, s.branches.lookup (full b) = some n →
      n ∈ (s.commitOf? (full k.current)).toList := by
    intro b hb n hn
    rw [List.mem_singleton.1 hb] at hn
    rw [Option.mem_toList, Store.commitOf?, hn]
  have hfirst : (s.commitOf? (full k.current)).toList.head? = s.commitOf? (full k.current) := by
    cases s.commitOf? (full k.current) <;> rfl
  obtain ⟨-, hsketched⟩ := (h.staged hflat hout).committed
    (c := ⟨index, (s.commitOf? (full k.current)).toList, signature, message⟩) hdistinct hk hflat
    hcoherent hout hstorable hmessage hparents hfirst hsources hmem
  rw [withStore_withStore] at hsketched
  refine ⟨id, _, hon, hsketched, ?_⟩
  rw [Store.committed, Store.lookup_setTip, if_pos rfl]
  rfl

theorem exists_tag (h : Sketched start objects k s r) (hk : k.tag name = some k')
    {signature : Signature} (hsignature : signatureAt start.identity time = .ok signature)
    (hstorable : signature.isStorable = true)
    (htip : (s.branches.lookup (full k.current)).isSome = true) :
    ∃ t, on (Repository.tag name name time) r = (.ok (), r.withStore t) ∧
      Sketched start objects k' t (r.withStore t) := by
  rw [← h.intact.identity] at hsignature
  obtain ⟨n, hn⟩ := Option.isSome_iff_exists.1 htip
  unfold Sketch.tag at hk
  split at hk
  · rename_i key hkey
    rw [Option.ite_none_right_eq_some] at hk
    obtain ⟨⟨hbegin, hroom, hmessage⟩, hk⟩ := hk
    cases hk
    rw [← h.tags] at hroom
    have hheadCommit := Store.headCommit_of_branch h.head hn
    have hon := h.ready.on_tag hheadCommit hsignature hstorable hmessage hkey hbegin hroom
    obtain ⟨t, hintact, -⟩ := h.intact.tag hon
    have hstore := hintact.store?
    rw [store?_withStore] at hstore
    cases hstore
    exact ⟨_, hon, { h with
      intact := hintact
      tidy := (h.ready.withStore _).tidy
      tags := by rw [List.map_cons, h.tags] }⟩
  · cases hk

/-! ### Merges -/

theorem current_eq (h : Sketched start objects k s r) : currentOf s = .ok k.current := by
  have hcurrent := (h.plain k.current (List.mem_cons_self ..)).shortened
  rw [currentOf, h.head]
  exact congrArg Except.ok hcurrent

/-- Where a link leads from the branch that is checked out, another branch is ahead. -/
theorem ahead (h : Sketched start objects k s r) (hlink : ⟨k.current, branch, true⟩ ∈ k.links) :
    ∃ ours theirs, s.branches.lookup (full k.current) = some ours ∧ tipOf s k.current = .ok ours ∧
      s.branches.lookup (full branch) = some theirs ∧ tipOf s branch = .ok theirs ∧
        s.history.Ancestor ours theirs ∧ ours < theirs := by
  obtain ⟨ours, theirs, hours, htheirs, hancestor, hproper⟩ := h.links _ hlink
  have hbranch : branch ∈ k.branches := by
    obtain ⟨b, hb, heq⟩ := (h.branches (full branch)).1 (Option.isSome_iff_exists.2 ⟨theirs, htheirs⟩)
    rwa [Sketch.full_injective heq]
  refine ⟨ours, theirs, hours, ?_, htheirs, ?_, hancestor, hproper rfl⟩
  · rw [tipOf_eq_ok, tip?_eq (h.plain _ (List.mem_cons_self ..))]
    exact hours
  · rw [tipOf_eq_ok, tip?_eq (h.plain _ (List.mem_cons_of_mem _ hbranch))]
    exact htheirs

theorem exists_fastForward [Git.Merger] (h : Sketched start objects k s r)
    (hlink : ⟨k.current, branch, true⟩ ∈ k.links) :
    ∃ t r', on (Repository.merge branch .fastForward) r = (.ok (), r') ∧
      Sketched start objects (k.moveTip k.current branch) t r' := by
  obtain ⟨ours, theirs, htip, hours, hsource, htheirs, hancestor, hlt⟩ := h.ahead hlink
  have hcurrent := h.plain k.current (List.mem_cons_self ..)
  have hmoved := h.movedTip hcurrent hsource fun m hm => by
    rw [htip] at hm
    cases hm
    exact hancestor
  have hforward : s.history.isAncestor ours theirs = true :=
    (History.isAncestor_iff h.intact.sound.history).2 ⟨Nat.ne_of_lt hlt, hancestor⟩
  obtain ⟨t, r', hon, hsketched⟩ := hmoved.exists_checkoutHead (n := theirs) (by
    rw [Store.lookup_setTip]
    exact if_pos rfl)
  refine ⟨t, r', ?_, hsketched⟩
  rw [on_fastForward h.intact.store?, h.current_eq]
  simp only [hours, htheirs, if_neg (Nat.ne_of_lt hlt), hforward, hcurrent.kept]
  exact hon

/-- What is merged from ahead comes out as it is there. -/
theorem merged_eq [Git.Merger] [Git.LawfulMerger] (h : Sketched start objects k s r)
    {ours theirs : Nat} (hancestor : s.history.Ancestor ours theirs) :
    r.merged s ours theirs = ⟨s.history.snapshot theirs, []⟩ :=
  LawfulMerger.forward h.intact.sound.history hancestor (h.coherent ours) (h.coherent theirs)

theorem exists_mergeWithCommit [Git.Merger] [Git.LawfulMerger]
    (h : Sketched start objects k s r) (hdistinct : Distinct objects)
    (hlink : ⟨k.current, branch, true⟩ ∈ k.links) (hk : k.commit [branch] = some k')
    {commit : Commit} {signature : Signature}
    (hsignature : signatureAt start.identity commit.datetime = .ok signature)
    (hstorable : signature.isStorable = true) (hmessage : '\x00' ∉ commit.message.toList)
    (hoffered : ∀ e ∈ r.offered? (.merge branch (.withCommit commit)), e ∈ objects) :
    ∃ t r', on (Repository.merge branch (.withCommit commit)) r = (.ok (), r') ∧
      Sketched start objects k' t r' := by
  rw [← h.intact.identity] at hsignature
  obtain ⟨ours, theirs, htip, hours, hsource, htheirs, hancestor, -⟩ := h.ahead hlink
  have hobject : mergeObject r s branch commit =
      .ok ⟨s.history.snapshot theirs, [ours, theirs], signature, commit.message⟩ := by
    simp only [mergeObject, h.current_eq, Except.ok_bind, hours, htheirs, h.merged_eq hancestor,
      hsignature]
    rfl
  have hmem := encode_mem_of_merge h.intact.store? hobject hoffered
  have hparents := mergeObject_parents_lt h.intact.sound hobject
  have hsources : ∀ b ∈ [k.current, branch], ∀ n, s.branches.lookup (full b) = some n →
      n ∈ [ours, theirs] := by
    intro b hb n hn
    rcases List.mem_cons.1 hb with rfl | hb
    · rw [htip] at hn
      cases hn
      exact List.mem_cons_self ..
    · rw [List.mem_singleton.1 hb, hsource] at hn
      cases hn
      exact List.mem_cons_of_mem _ (List.mem_singleton_self _)
  have hfirst : [ours, theirs].head? = s.commitOf? (full k.current) := by
    rw [Store.commitOf?, htip]
    rfl
  obtain ⟨⟨id, hcommit⟩, hsketched⟩ := h.committed
    (c := ⟨s.history.snapshot theirs, [ours, theirs], signature, commit.message⟩) hdistinct hk
    (h.flat theirs) (h.coherent theirs) (h.intact.outside theirs) hstorable hmessage hparents hfirst
    hsources hmem
  obtain ⟨t, r', hon, hlast⟩ := hsketched.exists_checkoutHead (n := (s.history.add _).1) (by
    rw [Sketch.current_of_commit hk, Store.committed, Store.lookup_setTip]
    exact if_pos rfl)
  refine ⟨t, r', ?_, hlast⟩
  rw [on_mergeWithCommit h.intact.store?, hobject]
  dsimp only
  rw [hcommit]
  exact hon

end Sketched

end ReleaseHistory
