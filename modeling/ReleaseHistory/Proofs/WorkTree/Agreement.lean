import ReleaseHistory.Proofs.Git.BranchName
import ReleaseHistory.Proofs.Replay.Followed
import ReleaseHistory.Proofs.WorkTree.Recorder

/-!
# Recorders and repositories

A recorder and a new repository do the same with branches, checkouts, commits and tags, as long as
nothing is asked of them that the recorder overlooks: a branch that is there already, a tag where
there is no commit, a text that cannot be stored, names in which the place of branches is written
out, and names that describe an object of the repository. Where it overlooks something, the two
differ at once.
-/

namespace ReleaseHistory

open Operation Git
open RefName (ValidBranch ValidTag InPlace)
open Sketch (full)

/-! ### Calls side by side -/

namespace WorkTree

variable {σ τ : Type} [WorkTree σ] [WorkTree τ]

def Call.succeeds (s : σ) : Call → Bool
  | .currentBranch => (on WorkTree.currentBranch s).1.isOk
  | .branchExists name => (on (WorkTree.branchExists name) s).1.isOk
  | .createBranch name start => (on (WorkTree.createBranch name start) s).1.isOk
  | .checkout name => (on (WorkTree.checkout name) s).1.isOk
  | .readText path => (on (WorkTree.readText path) s).1.isOk
  | .writeText path text => (on (WorkTree.writeText path text) s).1.isOk
  | .commit message time => (on (WorkTree.commit message time) s).1.isOk
  | .merge branch mode => (on (WorkTree.merge branch mode) s).1.isOk
  | .tag name message time => (on (WorkTree.tag name message time) s).1.isOk
  | .tags => (on WorkTree.tags s).1.isOk
  | .log branch => (on (WorkTree.log branch) s).1.isOk

/-- Two work trees report the same branch as checked out, the same branches and the same tags. -/
structure SameReports (s : σ) (t : τ) : Prop where
  current : (on WorkTree.currentBranch s).1 = (on WorkTree.currentBranch t).1
  branches : ∀ name, ValidBranch name →
    (on (WorkTree.branchExists name) s).1 = (on (WorkTree.branchExists name) t).1
  tags : (on WorkTree.tags s).1 = (on WorkTree.tags t).1

/-- Each call of a run succeeds on both work trees or on none, and they report the same after it. -/
def Agree (s : σ) (t : τ) : List Call → Prop
  | [] => True
  | call :: calls => call.succeeds s = call.succeeds t ∧
      SameReports (call.after s) (call.after t) ∧ Agree (call.after s) (call.after t) calls

/-- Names that branches and tags can have, none of which stands in the way of another. -/
structure Compatible (names labels : List String) : Prop where
  branch : ∀ name ∈ names, ValidBranch name
  branchesApart : ∀ a ∈ names, ∀ b ∈ names, RefName.collide (full a) (full b) = false
  tag : ∀ label ∈ labels, ValidTag label
  tagsApart : ∀ a ∈ labels, ∀ b ∈ labels,
    RefName.collide (RefName.tagsPlace ++ a) (RefName.tagsPlace ++ b) = false

/-- A call that creates a branch, checks one out, commits or tags, with some names of branches and of
tags and with times that can be read. -/
def Call.Fits (names labels : List String) : Call → Prop
  | .createBranch name start => name ∈ names ∧ start ∈ names
  | .checkout name => name ∈ names
  | .commit _ time => (Time.Timestamp.parse time).isOk = true
  | .tag label _ time => label ∈ labels ∧ (Time.Timestamp.parse time).isOk = true
  | _ => False

instance Call.decidableFits (names labels : List String) : (call : Call) →
    Decidable (call.Fits names labels)
  | .createBranch _ _ => inferInstanceAs (Decidable (_ ∧ _))
  | .checkout _ => inferInstanceAs (Decidable (_ ∈ _))
  | .commit _ _ => inferInstanceAs (Decidable (_ = true))
  | .tag _ _ _ => inferInstanceAs (Decidable (_ ∧ _))
  | .currentBranch | .branchExists _ | .readText _ | .writeText _ _ | .merge _ _ | .tags | .log _ =>
    inferInstanceAs (Decidable False)

end WorkTree

/-- The name of a branch describes an object with files that the store holds, as `main-1-g1f3a` may. -/
def Repository.Describes (g : Repository) (name : String) : Prop :=
  ∃ s target snapshot, g.store? = some s ∧ Revision.described? s (full name) = some target ∧
    target.snapshot? s = some snapshot

/-- What a recorder does not look at: whether a branch that it creates is there already, or begins with
the place of branches; whether a tag stands for a branch that is checked out, or its name describes an
object; whether a text can be stored; and whether there is a commit to be tagged. -/
def Recorder.Overlooks (r : Recorder) (g : Repository) : WorkTree.Call → Prop
  | .createBranch name start => (r.history? start).isSome = true ∧
      ((r.history? name).isSome = true ∨ InPlace name)
  | .checkout name => r.history? name = none ∧ (full name ∈ r.tags ∨ g.Describes name)
  | .commit message _ => '\x00' ∈ message.toList
  | .tag name message _ => name ∉ r.tags ∧
      (r.history? r.current = none ∨ '\x00' ∈ message.toList)
  | _ => False

/-- Nothing of a run is overlooked, on a recorder beside a repository. -/
def Recorder.Heeds [Git.Merger] (r : Recorder) (g : Repository) : List WorkTree.Call → Prop
  | [] => True
  | call :: calls => ¬r.Overlooks g call ∧ Heeds (call.after r) (call.after g) calls

open WorkTree Repository

/-! ### Repositories that mirror a recorder -/

/-- The branches and tags of a recorder are those of a repository, and the same branch is checked out.
All names are among some. -/
structure Mirrors (names labels : List String) (r : Recorder) (s : Store) (g : Repository) : Prop where
  ready : Ready s g
  accepted : g.identity.Accepted
  flat : s.history.Flat
  index : s.index.Flat
  head : s.head = .branch (full r.current)
  branches : ∀ key, (s.branches.lookup key).isSome = true ↔
    ∃ b, (r.history? b).isSome = true ∧ key = full b
  named : ∀ b, b = r.current ∨ (r.history? b).isSome = true → b ∈ names ∧ ¬InPlace b
  tags : s.tags.map (·.1) = (r.tags.map (RefName.tagsPlace ++ ·)).reverse
  listed : ∀ label ∈ r.tags, label ∈ labels

namespace Mirrors

variable {names labels : List String} {r : Recorder} {s t : Store} {g : Repository}
  {name label start message time key : String}

/-! ### References -/

theorem isSome_lookup (h : Mirrors names labels r s g) (name : String) :
    (s.branches.lookup (full name)).isSome = (r.history? name).isSome := by
  rw [Bool.eq_iff_iff, h.branches]
  constructor
  · rintro ⟨b, hb, heq⟩
    rwa [Sketch.full_injective heq]
  · intro hname
    exact ⟨name, hname, rfl⟩

theorem lookup_eq_none (h : Mirrors names labels r s g) (hname : r.history? name = none) :
    s.branches.lookup (full name) = none := by
  rw [← Option.not_isSome_iff_eq_none, h.isSome_lookup, hname]
  exact Bool.false_ne_true

theorem exists_tip (h : Mirrors names labels r s g) (hname : (r.history? name).isSome = true) :
    ∃ n, s.branches.lookup (full name) = some n := by
  rw [← h.isSome_lookup] at hname
  exact Option.isSome_iff_exists.1 hname

theorem mem_tags_iff (h : Mirrors names labels r s g) :
    key ∈ s.tags.map (·.1) ↔ ∃ label ∈ r.tags, key = RefName.tagsPlace ++ label := by
  rw [h.tags, List.mem_reverse, List.mem_map]
  simp only [eq_comm]

theorem tag_eq_none (h : Mirrors names labels r s g)
    (hkey : ∀ label ∈ r.tags, key ≠ RefName.tagsPlace ++ label) : s.tags.lookup key = none := by
  rw [List.lookup_eq_none_iff]
  intro entry hentry
  obtain ⟨label, hlabel, heq⟩ := h.mem_tags_iff.1 (List.mem_map_of_mem hentry)
  rw [heq]
  simpa using hkey label hlabel

theorem tag_full (h : Mirrors names labels r s g) (name : String) :
    s.tags.lookup (full name) = none :=
  h.tag_eq_none fun _ _ => RefName.tagsPlace_ne_headsPlace.symm

theorem headCommit (h : Mirrors names labels r s g) :
    s.headCommit = .ok (s.branches.lookup (full r.current)) := by
  have hcommit : s.commitOf? (full r.current) = s.branches.lookup (full r.current) := by
    rw [Store.commitOf?, h.tag_full]
    cases s.branches.lookup (full r.current) <;> rfl
  rw [Store.headCommit, h.head, ← hcommit]

theorem tip?_eq (hname : ValidBranch name) : s.tip? name = s.branches.lookup (full name) := by
  rw [Store.tip?, hname.kept, Option.bind_some]
  rfl

/-! ### Room -/

theorem full_of_mem (h : Mirrors names labels r s g) (hkey : key ∈ s.branches.map (·.1)) :
    ∃ b, (r.history? b).isSome = true ∧ key = full b :=
  (h.branches key).1 (FileTree.lookup_isSome_of_mem hkey)

theorem hasRoom (h : Mirrors names labels r s g) (hnames : Compatible names labels)
    (hname : name ∈ names) :
    Store.hasRoom (full name) ((s.branches.map (·.1)).filter (· ≠ full name)) = true := by
  rw [Store.hasRoom, Bool.not_eq_true', List.any_eq_false]
  intro key hkey
  obtain ⟨hmem, hother⟩ := List.mem_filter.1 hkey
  obtain ⟨b, hb, rfl⟩ := h.full_of_mem hmem
  simp [of_decide_eq_true hother, hnames.branchesApart b (h.named b (.inr hb)).1 name hname]

theorem hasRoom_iff (h : Mirrors names labels r s g) (hnames : Compatible names labels)
    (hname : name ∈ names) :
    Store.hasRoom (full name) (s.branches.map (·.1)) = true ↔ r.history? name = none := by
  constructor
  · intro hroom
    have hnone := Store.lookup_eq_none_of_hasRoom hroom
    rw [← Option.not_isSome_iff_eq_none, ← h.isSome_lookup, hnone]
    exact Bool.false_ne_true
  · intro hnone
    have hall : (s.branches.map (·.1)).filter (· ≠ full name) = s.branches.map (·.1) := by
      rw [List.filter_eq_self]
      intro key hkey
      obtain ⟨b, hb, rfl⟩ := h.full_of_mem hkey
      refine decide_eq_true fun heq => ?_
      rw [Sketch.full_injective heq, hnone] at hb
      cases hb
    rw [← hall]
    exact h.hasRoom hnames hname

theorem hasRoom_tag_iff (h : Mirrors names labels r s g) (hnames : Compatible names labels)
    (hlabel : label ∈ labels) :
    Store.hasRoom (RefName.tagsPlace ++ label) (s.tags.map (·.1)) = true ↔ label ∉ r.tags := by
  rw [Store.hasRoom, Bool.not_eq_true', List.any_eq_false]
  constructor
  · intro hroom hmem
    exact hroom _ (h.mem_tags_iff.2 ⟨label, hmem, rfl⟩) (by simp)
  · intro hno key hkey
    obtain ⟨other, hother, rfl⟩ := h.mem_tags_iff.1 hkey
    have hne : RefName.tagsPlace ++ other ≠ RefName.tagsPlace ++ label := by
      intro heq
      rw [RefName.tagsPlace_injective heq] at hother
      exact hno hother
    simp [hne, hnames.tagsApart other (h.listed other hother) label hlabel]

/-! ### Reports -/

theorem tagName_eq (label : String) : Store.tagName (RefName.tagsPlace ++ label) = label := by
  apply String.toList_injective
  have hcopy : (Store.tagName (RefName.tagsPlace ++ label)).toList =
      (RefName.tagsPlace ++ label).toList.drop RefName.tagsPlace.length := String.toList_copy_drop
  rw [hcopy, String.toList_append, List.drop_left' String.length_toList]

/-- The tags are the same in the order of their names, however they were made. -/
theorem tagNames_eq (h : Mirrors names labels r s g) : s.tagNames = r.sortedTags := by
  have hlabels : (s.tags.map fun t => Store.tagName t.1) = r.tags.reverse := by
    have hkeys : (s.tags.map fun t => Store.tagName t.1) = (s.tags.map (·.1)).map Store.tagName := by
      rw [List.map_map]
      rfl
    rw [hkeys, h.tags, List.map_reverse, List.map_map]
    congr 1
    exact (List.map_congr_left fun label _ => tagName_eq label).trans (List.map_id _)
  have hsorted : ∀ labels : List String,
      (labels.mergeSort fun a b => decide (a ≤ b)).Pairwise fun a b => a ≤ b := by
    intro labels
    refine List.Pairwise.imp of_decide_eq_true (List.pairwise_mergeSort ?_ ?_ labels)
    · simpa using fun _ _ _ => String.le_trans
    · simpa using String.le_total
  rw [Store.tagNames, hlabels, Recorder.sortedTags]
  refine List.Perm.eq_of_pairwise (fun a b _ _ => String.le_antisymm) (hsorted _) (hsorted _) ?_
  exact (List.mergeSort_perm _ _).trans
    ((List.reverse_perm r.tags).trans (List.mergeSort_perm _ _).symm)

theorem sameReports [Git.Merger] (h : Mirrors names labels r s g) : SameReports r g where
  current := by
    have hcurrent : on WorkTree.currentBranch g = (currentOf s, g) :=
      on_currentBranch h.ready.store
    rw [hcurrent, currentOf, h.head]
    exact congrArg Except.ok
      (RefName.shorten_of_not_inPlace (h.named r.current (.inl rfl)).2).symm
  branches := by
    intro name hname
    have hexists : on (WorkTree.branchExists name) g =
        (if (RefName.branch? name).isNone then .error .store else .ok (s.tip? name).isSome, g) :=
      on_branchExists h.ready.store name
    rw [hexists, hname.kept, tip?_eq hname, h.isSome_lookup]
    rfl
  tags := by
    rw [on_tags h.ready.store, h.tagNames_eq]
    rfl

/-! ### What calls leave -/

theorem withStore (h : Mirrors names labels r s g) (hhead : t.head = s.head)
    (hbranches : t.branches = s.branches) (htags : t.tags = s.tags) (hflat : t.history.Flat)
    (hindex : t.index.Flat) : Mirrors names labels r t (g.withStore t) :=
  { h with
    ready := h.ready.withStore t
    flat := hflat
    index := hindex
    head := hhead.trans h.head
    branches := by rw [hbranches]; exact h.branches
    tags := by rw [htags]; exact h.tags }

theorem setTip (h : Mirrors names labels r s g) (hname : name ∈ names) (hplace : ¬InPlace name)
    (summaries : List String) (n : Nat) :
    Mirrors names labels { r with branches := Recorder.put name summaries r.branches }
      (s.setTip (full name) n) (g.withStore (s.setTip (full name) n)) := by
  have hhistory : ∀ b, (({ r with branches := Recorder.put name summaries r.branches } :
      Recorder).history? b).isSome = true ↔ b = name ∨ (r.history? b).isSome = true := by
    intro b
    rw [Recorder.history?, Recorder.lookup_put]
    by_cases hb : b = name
    · simp [hb]
    · simp only [hb, if_false, false_or]
      rfl
  exact
    { ready := h.ready.withStore _
      accepted := h.accepted
      flat := by rw [Store.setTip_history]; exact h.flat
      index := by rw [Store.setTip_index]; exact h.index
      head := by rw [Store.setTip_head]; exact h.head
      branches := fun key => by
        rw [Store.lookup_setTip]
        by_cases hkey : key = full name
        · rw [if_pos hkey]
          exact iff_of_true rfl ⟨name, (hhistory name).2 (.inl rfl), hkey⟩
        · rw [if_neg hkey, h.branches]
          constructor
          · rintro ⟨b, hb, heq⟩
            exact ⟨b, (hhistory b).2 (.inr hb), heq⟩
          · rintro ⟨b, hb, rfl⟩
            rcases (hhistory b).1 hb with rfl | hb
            · exact absurd rfl hkey
            · exact ⟨b, hb, rfl⟩
      named := by
        rintro b (rfl | hb)
        · exact h.named _ (.inl rfl)
        · rcases (hhistory b).1 hb with rfl | hb
          · exact ⟨hname, hplace⟩
          · exact h.named b (.inr hb)
      tags := by rw [Store.setTip_tags]; exact h.tags
      listed := h.listed }

theorem flat_shown (h : Mirrors names labels r s g) : (s.headSnapshot ++ s.index).Flat := by
  intro entry hentry
  rcases List.mem_append.1 hentry with hentry | hentry
  · unfold Store.headSnapshot at hentry
    split at hentry
    · exact h.flat _ entry hentry
    · cases hentry
  · exact h.index entry hentry

theorem headOf?_full (h : Mirrors names labels r s g) (hname : ValidBranch name) :
    headOf? s (RefName.headsPlace ++ name) = some (.branch (full name)) := by
  have htag : s.tags.lookup (RefName.headsPlace ++ name) = none := h.tag_full name
  rw [headOf?, hname.normalize?_full, Option.map_some, htag]
  cases s.branches.lookup (RefName.headsPlace ++ name) <;> rfl

/-- Whatever a branch is found by, it is checked out if its name leads to files. -/
theorem exists_checkout_of_resolve (h : Mirrors names labels r s g) (hname : ValidBranch name)
    {target : Revision.Target} {snapshot : Snapshot}
    (htarget : Revision.resolve s (RefName.headsPlace ++ name) = some target)
    (hsnapshot : target.snapshot? s = some snapshot) :
    on (Repository.checkout name) g = (.ok (), (g.showing s snapshot).withStore
      { s with index := snapshot, head := .branch (full name) }) :=
  on_checkout_of_resolve h.ready.store htarget hsnapshot (h.headOf?_full hname)

theorem exists_checkout (h : Mirrors names labels r s g) (hnames : Compatible names labels)
    (hname : (r.history? name).isSome = true) :
    ∃ t g', on (Repository.checkout name) g = (.ok (), g') ∧
      Mirrors names labels { r with current := name } t g' := by
  obtain ⟨n, hn⟩ := h.exists_tip hname
  obtain ⟨hmem, hplace⟩ := h.named name (.inr hname)
  have hvalid := hnames.branch name hmem
  have htarget := Revision.resolve_tip hvalid.kept hvalid.stepless hn
  have hmirrors : Mirrors names labels { r with current := name }
      { s with index := s.history.snapshot n, head := .branch (full name) }
      ((g.showing s (s.history.snapshot n)).withStore
        { s with index := s.history.snapshot n, head := .branch (full name) }) :=
    { h with
      ready := (h.ready.showing h.flat_shown (h.flat n)).withStore _
      index := h.flat n
      head := rfl
      named := by
        rintro b (rfl | hb)
        · exact ⟨hmem, hplace⟩
        · exact h.named b (.inr hb) }
  exact ⟨_, _, h.exists_checkout_of_resolve hvalid htarget rfl, hmirrors⟩

theorem exists_createBranch (h : Mirrors names labels r s g) (hnames : Compatible names labels)
    (hname : name ∈ names) (hstart : start ∈ names) (hfrom : (r.history? start).isSome = true)
    (hnew : r.history? name = none) (hplace : ¬InPlace name) (summaries : List String) :
    ∃ t g', on (Repository.createBranch name start) g = (.ok (), g') ∧
      Mirrors names labels { r with
        current := name, branches := Recorder.put name summaries r.branches } t g' := by
  obtain ⟨n, hn⟩ := h.exists_tip hfrom
  have hvalid := hnames.branch name hname
  have hroom := (h.hasRoom_iff hnames hname).2 hnew
  have hcreate : s.createBranch? name n = some (s.setTip (full name) n) := by
    have hfull : RefName.branch? name = some (full name) := hvalid.kept
    simp only [Store.createBranch?, hfull, hvalid.begins, hroom, decide_eq_true hvalid.ne_head,
      Bool.and_self, if_true]
  have htip : tipOf s start = .ok n := by
    rw [tipOf_eq_ok, tip?_eq (hnames.branch start hstart)]
    exact hn
  have hthere := h.setTip hname hplace summaries n
  have hborn : (({ r with branches := Recorder.put name summaries r.branches } :
      Recorder).history? name).isSome = true := by
    rw [Recorder.history?, Recorder.lookup_put, if_pos rfl]
    rfl
  obtain ⟨t, g', hon, hmirrors⟩ := hthere.exists_checkout hnames hborn
  refine ⟨t, g', ?_, hmirrors⟩
  rw [on_createBranch h.ready.store, htip]
  dsimp only
  rw [hcreate]
  exact hon

theorem signs (h : Mirrors names labels r s g) (htime : (Time.Timestamp.parse time).isOk = true) :
    Replay.Signs g.identity time := by
  cases htimestamp : Time.Timestamp.parse time with
  | error e =>
    rw [htimestamp] at htime
    cases htime
  | ok t => exact Replay.signs_of_accepted h.accepted htimestamp

theorem exists_commit (h : Mirrors names labels r s g) (hnames : Compatible names labels)
    (htime : (Time.Timestamp.parse time).isOk = true) (hmessage : '\x00' ∉ message.toList)
    (summaries : List String) : ∃ id t g', on (Repository.commit message time) g = (.ok id, g') ∧
      Mirrors names labels { r with
        branches := Recorder.put r.current summaries r.branches } t g' := by
  obtain ⟨hcurrent, hplace⟩ := h.named r.current (.inl rfl)
  obtain ⟨signature, hsignature, hstorable⟩ := h.signs htime
  obtain ⟨index, id, -, hflat, -, hon⟩ := h.ready.exists_commit h.head (h.hasRoom hnames hcurrent)
    hsignature hstorable hmessage
  have hgrown := h.withStore (t := { s with
    index := index
    history := (s.history.add
      ⟨index, (s.commitOf? (full r.current)).toList, signature, message⟩).2 }) rfl rfl rfl
    (h.flat.add hflat) hflat
  have hmoved := hgrown.setTip hcurrent hplace summaries (s.history.add
    ⟨index, (s.commitOf? (full r.current)).toList, signature, message⟩).1
  rw [withStore_withStore] at hmoved
  exact ⟨id, _, _, hon, hmoved⟩

theorem exists_tag (h : Mirrors names labels r s g) (hnames : Compatible names labels)
    (hlabel : label ∈ labels) (htime : (Time.Timestamp.parse time).isOk = true)
    (hcurrent : (r.history? r.current).isSome = true) (hnew : label ∉ r.tags)
    (hmessage : '\x00' ∉ message.toList) :
    ∃ t g', on (Repository.tag label message time) g = (.ok (), g') ∧
      Mirrors names labels { r with tags := r.tags ++ [label] } t g' := by
  obtain ⟨n, hn⟩ := h.exists_tip hcurrent
  obtain ⟨signature, hsignature, hstorable⟩ := h.signs htime
  have hvalid := hnames.tag label hlabel
  have hhead : s.headCommit = .ok (some n) := by rw [h.headCommit, hn]
  have hon := h.ready.on_tag hhead hsignature hstorable hmessage hvalid.kept hvalid.begins
    ((h.hasRoom_tag_iff hnames hlabel).2 hnew)
  have hmirrors : Mirrors names labels { r with tags := r.tags ++ [label] }
      { s with tags := (RefName.tagsPlace ++ label, ⟨label, n, signature, message⟩) :: s.tags }
      (g.withStore
        { s with tags := (RefName.tagsPlace ++ label, ⟨label, n, signature, message⟩) :: s.tags }) :=
    { h with
      ready := h.ready.withStore _
      tags := by
        rw [List.map_cons, h.tags, List.map_append, List.reverse_append]
        rfl
      listed := by
        intro other hother
        rcases List.mem_append.1 hother with hother | hother
        · exact h.listed other hother
        · rwa [List.mem_singleton.1 hother] }
  exact ⟨_, _, hon, hmirrors⟩

/-! ### What is refused -/

theorem refused_start (h : Mirrors names labels r s g) (hnames : Compatible names labels)
    (hstart : start ∈ names) (hno : r.history? start = none) (name : String) :
    on (Repository.createBranch name start) g =
      (.error (.configuration (.missingBranch start)), g) := by
  have htip : tipOf s start = .error (.configuration (.missingBranch start)) := by
    rw [tipOf, tip?_eq (hnames.branch start hstart), h.lookup_eq_none hno]
  rw [on_createBranch h.ready.store, htip]

theorem refused_present (h : Mirrors names labels r s g) (hnames : Compatible names labels)
    (hname : name ∈ names) (hstart : start ∈ names) (hfrom : (r.history? start).isSome = true)
    (hthere : (r.history? name).isSome = true) :
    on (Repository.createBranch name start) g = (.error .store, g) := by
  obtain ⟨n, hn⟩ := h.exists_tip hfrom
  have htip : tipOf s start = .ok n := by
    rw [tipOf_eq_ok, tip?_eq (hnames.branch start hstart)]
    exact hn
  have hroom : Store.hasRoom (full name) (s.branches.map (·.1)) = false := by
    rw [← Bool.not_eq_true, h.hasRoom_iff hnames hname]
    exact Option.isSome_iff_ne_none.1 hthere
  have hcreate : s.createBranch? name n = none := by
    have hfull : RefName.branch? name = some (full name) := (hnames.branch name hname).kept
    simp [Store.createBranch?, hfull, hroom]
  rw [on_createBranch h.ready.store, htip]
  dsimp only
  rw [hcreate]

theorem refused_commit (h : Mirrors names labels r s g) (hmessage : '\x00' ∈ message.toList) :
    ∃ e g', on (Repository.commit message time) g = (.error e, g') := by
  rw [on_commit h.ready.store]
  cases g.stagedFiles s with
  | none => exact ⟨_, _, rfl⟩
  | some index =>
    dsimp only
    cases hobject : commitObject g.identity s index message time with
    | error e => exact ⟨_, _, rfl⟩
    | ok c =>
      obtain ⟨signature, parent, -, -, rfl⟩ := commitObject_eq_ok hobject
      have hrefused : ({ s with index := index } : Store).commit?
          ⟨index, parent.toList, signature, message⟩ = none := by
        simp [Store.commit?, hmessage]
      dsimp only
      rw [on_addCommit (store?_withStore g _), hrefused]
      exact ⟨_, _, rfl⟩

/-- A tag that is there already is refused, and any before the first commit or with a message that
cannot be stored. -/
theorem refused_tag (h : Mirrors names labels r s g) (hnames : Compatible names labels)
    (hlabel : label ∈ labels)
    (hno : label ∈ r.tags ∨ r.history? r.current = none ∨ '\x00' ∈ message.toList) :
    ∃ e, on (Repository.tag label message time) g = (.error e, g) := by
  rw [on_tag h.ready.store, h.headCommit]
  cases htip : s.branches.lookup (full r.current) with
  | none => exact ⟨_, rfl⟩
  | some n =>
    dsimp only
    cases signatureAt g.identity time with
    | error e => exact ⟨_, rfl⟩
    | ok signature =>
      dsimp only
      split
      · exact ⟨_, rfl⟩
      · rename_i hstorable
        have hfull : RefName.tag? label = some (RefName.tagsPlace ++ label) :=
          (hnames.tag label hlabel).kept
        have hroom : Store.hasRoom (RefName.tagsPlace ++ label) (s.tags.map (·.1)) = false := by
          rw [← Bool.not_eq_true, h.hasRoom_tag_iff hnames hlabel, not_not]
          refine hno.resolve_right (not_or.2 ⟨fun hnone => ?_, fun hnul => ?_⟩)
          · rw [h.lookup_eq_none hnone] at htip
            cases htip
          · simp [hnul] at hstorable
        have hcreate : s.createTag? ⟨label, n, signature, message⟩ = none := by
          simp [Store.createTag?, hfull, hroom]
        rw [hcreate]
        exact ⟨_, rfl⟩

/-! ### Names that lead to no branch -/

theorem reference?_eq_none (h : Mirrors names labels r s g) (hhead : key ≠ Store.headFile)
    (hbranch : ∀ b, (r.history? b).isSome = true → key ≠ full b)
    (htag : ∀ label ∈ r.tags, key ≠ RefName.tagsPlace ++ label) :
    Revision.reference? s key = none := by
  have hno : s.branches.lookup key = none := by
    rw [← Option.not_isSome_iff_eq_none, h.branches]
    rintro ⟨b, hb, heq⟩
    exact hbranch b hb heq
  rw [Revision.reference?, if_neg hhead, hno, h.tag_eq_none htag]
  rfl

theorem ne_headFile {c : Char} (h : key.toList[5]? = some c) : key ≠ Store.headFile := by
  rintro rfl
  exact absurd h (by simp [Store.headFile])

/-- The full name of a branch that is not there can be nothing but that of a tag. -/
theorem fullName?_eq (h : Mirrors names labels r s g) (hno : r.history? name = none) :
    Revision.fullName? s (RefName.headsPlace ++ name) =
      [RefName.tagsPlace ++ full name].find? fun key =>
        RefName.isStrict key && (Revision.reference? s key).isSome := by
  have habsent : ∀ b, (r.history? b).isSome = true → b ≠ name := by
    rintro b hb rfl
    rw [hno] at hb
    cases hb
  have hhere : Revision.reference? s (full name) = none :=
    h.reference?_eq_none (Revision.headsPlace_append_ne_headFile name)
      (fun b hb heq => habsent b hb (Sketch.full_injective heq.symm))
      fun _ _ => RefName.tagsPlace_ne_headsPlace.symm
  have hrefs : Revision.reference? s ("refs/" ++ full name) = none :=
    h.reference?_eq_none (ne_headFile (RefName.toList_place name).2.2)
      (fun _ _ => RefName.refs_ne_place.1) fun _ _ => RefName.refs_ne_place.2
  have hheads : Revision.reference? s (RefName.headsPlace ++ full name) = none := by
    apply h.reference?_eq_none (Revision.headsPlace_append_ne_headFile _)
    · intro b hb heq
      exact (h.named b (.inr hb)).2 ⟨name, (Sketch.full_injective heq).symm⟩
    · exact fun _ _ => RefName.tagsPlace_ne_headsPlace.symm
  have hplaces : Revision.places.map (· ++ (RefName.headsPlace ++ name)) =
      [full name, "refs/" ++ full name, RefName.tagsPlace ++ full name,
        RefName.headsPlace ++ full name] := by
    simp [Revision.places, full]
  rw [Revision.fullName?, hplaces]
  simp [List.find?_cons, hhere, hrefs, hheads]

/-- A branch that is not there leads to what its name describes, unless a tag has its full name. -/
theorem resolve_missing (h : Mirrors names labels r s g) (hname : ValidBranch name)
    (hno : r.history? name = none) (htag : full name ∉ r.tags) :
    Revision.resolve s (RefName.headsPlace ++ name) = Revision.described? s (full name) := by
  have htags : Revision.reference? s (RefName.tagsPlace ++ full name) = none := by
    apply h.reference?_eq_none (ne_headFile (RefName.toList_place _).2.1)
    · exact fun _ _ => RefName.tagsPlace_ne_headsPlace
    · intro label hlabel heq
      rw [RefName.tagsPlace_injective heq] at htag
      exact htag hlabel
  have hfull : Revision.fullName? s (RefName.headsPlace ++ name) = none := by
    rw [h.fullName?_eq hno]
    simp [htags]
  rw [Revision.resolve_of_stepless hname.stepless, hfull, Option.elim_none]
  rfl

theorem resolve_tag (h : Mirrors names labels r s g) (hnames : Compatible names labels)
    (hname : ValidBranch name) (hno : r.history? name = none) (htag : full name ∈ r.tags) :
    ∃ t, Revision.resolve s (RefName.headsPlace ++ name) = some (.tag t) := by
  have hkey : RefName.tagsPlace ++ full name ∈ s.tags.map (·.1) := h.mem_tags_iff.2 ⟨_, htag, rfl⟩
  obtain ⟨t, ht⟩ := Option.isSome_iff_exists.1 (FileTree.lookup_isSome_of_mem hkey)
  have hbranch : s.branches.lookup (RefName.tagsPlace ++ full name) = none := by
    rw [← Option.not_isSome_iff_eq_none, h.branches]
    rintro ⟨b, -, heq⟩
    exact RefName.tagsPlace_ne_headsPlace heq
  have hreference : Revision.reference? s (RefName.tagsPlace ++ full name) = some (.tag t) := by
    rw [Revision.reference?, if_neg (ne_headFile (RefName.toList_place _).2.1), hbranch, ht]
    rfl
  have hstrict : RefName.isStrict (RefName.tagsPlace ++ full name) = true :=
    RefName.isStrict_of_validTag (hnames.tag _ (h.listed _ htag))
  have hfull : Revision.fullName? s (RefName.headsPlace ++ name) =
      some (RefName.tagsPlace ++ full name) := by
    rw [h.fullName?_eq hno]
    simp [hreference, hstrict]
  refine ⟨t, ?_⟩
  rw [Revision.resolve_of_stepless hname.stepless, hfull, Option.elim_some]
  exact hreference

theorem exists_resolve (h : Mirrors names labels r s g) (hnames : Compatible names labels)
    (hname : ValidBranch name) (hno : r.history? name = none)
    (hfound : full name ∈ r.tags ∨ g.Describes name) : ∃ target snapshot,
    Revision.resolve s (RefName.headsPlace ++ name) = some target ∧
      target.snapshot? s = some snapshot := by
  by_cases htag : full name ∈ r.tags
  · obtain ⟨t, ht⟩ := h.resolve_tag hnames hname hno htag
    exact ⟨.tag t, s.history.snapshot t.target, ht, rfl⟩
  · obtain ⟨s', target, snapshot, hs', htarget, hsnapshot⟩ := hfound.resolve_left htag
    obtain rfl := Option.some.inj (h.ready.store.symm.trans hs')
    exact ⟨target, snapshot, (h.resolve_missing hname hno htag).trans htarget, hsnapshot⟩

theorem refused_checkout (h : Mirrors names labels r s g) (hname : ValidBranch name)
    (hno : r.history? name = none) (hnot : ¬(full name ∈ r.tags ∨ g.Describes name)) :
    ∃ e, on (Repository.checkout name) g = (.error e, g) := by
  obtain ⟨htag, hdescribes⟩ := not_or.1 hnot
  rw [on_checkout h.ready.store, h.resolve_missing hname hno htag]
  cases htarget : Revision.described? s (full name) with
  | none => exact ⟨_, rfl⟩
  | some target =>
    cases hsnapshot : target.snapshot? s with
    | none =>
      dsimp only
      rw [hsnapshot]
      exact ⟨_, rfl⟩
    | some snapshot =>
      exact absurd ⟨s, target, snapshot, h.ready.store, htarget, hsnapshot⟩ hdescribes

/-! ### Calls -/

theorem congr {r' : Recorder} (h : Mirrors names labels r s g) (hcurrent : r'.current = r.current)
    (hbranches : r'.branches = r.branches) (htags : r'.tags = r.tags) :
    Mirrors names labels r' s g := by
  have hhistory : ∀ b, r'.history? b = r.history? b := fun b => by
    rw [Recorder.history?, hbranches]
    rfl
  exact
    { h with
      head := by rw [hcurrent]; exact h.head
      branches := by simpa only [hhistory] using h.branches
      named := by simpa only [hhistory, hcurrent] using h.named
      tags := by rw [htags]; exact h.tags
      listed := by rw [htags]; exact h.listed }

/-- A call keeps a recorder and its mirror alike if it succeeds on both, or is refused by both. -/
def Keeps [Git.Merger] (names labels : List String) (r : Recorder) (g : Repository)
    (call : Call) : Prop :=
  call.succeeds r = call.succeeds g ∧ ∃ t, Mirrors names labels (call.after r) t (call.after g)

theorem keeps_createBranch [Git.Merger] (h : Mirrors names labels r s g)
    (hnames : Compatible names labels) (hname : name ∈ names) (hstart : start ∈ names)
    (hnot : ¬r.Overlooks g (.createBranch name start)) :
    Keeps names labels r g (.createBranch name start) := by
  have hr : on (WorkTree.createBranch name start) r = _ := Recorder.on_createBranch
  cases hfrom : r.history? start with
  | none =>
    have hg : on (WorkTree.createBranch name start) g = _ :=
      h.refused_start hnames hstart hfrom name
    rw [hfrom] at hr
    rw [Keeps, Call.succeeds, Call.succeeds, Call.after, Call.after, hr, hg]
    exact ⟨rfl, s, h⟩
  | some summaries =>
    have hsome : (r.history? start).isSome = true := by rw [hfrom]; rfl
    obtain ⟨hnew, hplace⟩ := not_or.1 fun hor => hnot ⟨hsome, hor⟩
    rw [Option.not_isSome_iff_eq_none] at hnew
    obtain ⟨t, g', hon, hmirrors⟩ :=
      h.exists_createBranch hnames hname hstart hsome hnew hplace summaries
    have hg : on (WorkTree.createBranch name start) g = (.ok (), g') := hon
    rw [hfrom] at hr
    rw [Keeps, Call.succeeds, Call.succeeds, Call.after, Call.after, hr, hg]
    exact ⟨rfl, t, hmirrors.congr rfl rfl rfl⟩

theorem keeps_checkout [Git.Merger] (h : Mirrors names labels r s g)
    (hnames : Compatible names labels) (hname : name ∈ names)
    (hnot : ¬r.Overlooks g (.checkout name)) :
    Keeps names labels r g (.checkout name) := by
  have hr : on (WorkTree.checkout name) r = _ := Recorder.on_checkout
  cases hhistory : r.history? name with
  | none =>
    obtain ⟨e, hg⟩ : ∃ e, on (WorkTree.checkout name) g = (.error e, g) :=
      h.refused_checkout (hnames.branch name hname) hhistory fun hfound => hnot ⟨hhistory, hfound⟩
    rw [hhistory] at hr
    rw [Keeps, Call.succeeds, Call.succeeds, Call.after, Call.after, hr, hg]
    exact ⟨rfl, s, h⟩
  | some summaries =>
    have hsome : (r.history? name).isSome = true := by rw [hhistory]; rfl
    obtain ⟨t, g', hon, hmirrors⟩ := h.exists_checkout hnames hsome
    have hg : on (WorkTree.checkout name) g = (.ok (), g') := hon
    rw [hhistory] at hr
    rw [Keeps, Call.succeeds, Call.succeeds, Call.after, Call.after, hr, hg]
    exact ⟨rfl, t, hmirrors.congr rfl rfl rfl⟩

theorem keeps_commit [Git.Merger] (h : Mirrors names labels r s g)
    (hnames : Compatible names labels) (htime : (Time.Timestamp.parse time).isOk = true)
    (hnot : ¬r.Overlooks g (.commit message time)) :
    Keeps names labels r g (.commit message time) := by
  have hr : on (WorkTree.commit message time) r = _ := Recorder.on_commit
  obtain ⟨id, t, g', hon, hmirrors⟩ := h.exists_commit hnames htime hnot
    ((r.history? r.current).getD [] ++ [Text.firstLine message])
  have hg : on (WorkTree.commit message time) g = (.ok id, g') := hon
  rw [Keeps, Call.succeeds, Call.succeeds, Call.after, Call.after, hr, hg]
  exact ⟨rfl, t, hmirrors.congr rfl rfl rfl⟩

theorem keeps_tag [Git.Merger] (h : Mirrors names labels r s g) (hnames : Compatible names labels)
    (hlabel : label ∈ labels) (htime : (Time.Timestamp.parse time).isOk = true)
    (hnot : ¬r.Overlooks g (.tag label message time)) :
    Keeps names labels r g (.tag label message time) := by
  have hr : on (WorkTree.tag label message time) r = _ := Recorder.on_tag
  by_cases hthere : label ∈ r.tags
  · obtain ⟨e, hg⟩ : ∃ e, on (WorkTree.tag label message time) g = (.error e, g) :=
      h.refused_tag hnames hlabel (.inl hthere)
    rw [if_pos hthere] at hr
    rw [Keeps, Call.succeeds, Call.succeeds, Call.after, Call.after, hr, hg]
    exact ⟨rfl, s, h⟩
  · obtain ⟨hcurrent, hmessage⟩ := not_or.1 fun hor => hnot ⟨hthere, hor⟩
    obtain ⟨t, g', hon, hmirrors⟩ := h.exists_tag hnames hlabel htime
      (Option.isSome_iff_ne_none.2 hcurrent) hthere hmessage
    have hg : on (WorkTree.tag label message time) g = (.ok (), g') := hon
    rw [if_neg hthere] at hr
    rw [Keeps, Call.succeeds, Call.succeeds, Call.after, Call.after, hr, hg]
    exact ⟨rfl, t, hmirrors.congr rfl rfl rfl⟩

/-- A call of which nothing is overlooked succeeds on both or on none, and keeps them alike. -/
theorem keeps [Git.Merger] {call : Call} (h : Mirrors names labels r s g)
    (hnames : Compatible names labels) (hfits : call.Fits names labels)
    (hnot : ¬r.Overlooks g call) : Keeps names labels r g call := by
  cases call with
  | createBranch name start => exact h.keeps_createBranch hnames hfits.1 hfits.2 hnot
  | checkout name => exact h.keeps_checkout hnames hfits hnot
  | commit message time => exact h.keeps_commit hnames hfits hnot
  | tag label message time => exact h.keeps_tag hnames hfits.1 hfits.2 hnot
  | _ => exact hfits.elim

/-! ### What is overlooked -/

theorem not_inPlace_of_currentBranch [Git.Merger] (h : (on WorkTree.currentBranch g).1 = .ok name) :
    ¬InPlace name := by
  cases hstore : g.store? with
  | none =>
    have hon : on WorkTree.currentBranch g = (.error .store, g) := by
      show on Repository.currentBranch g = _
      rw [Repository.currentBranch, on_bind, on_store_of_none hstore]
    rw [hon] at h
    cases h
  | some s =>
    have hon : on WorkTree.currentBranch g = (currentOf s, g) := on_currentBranch hstore
    rw [hon, currentOf] at h
    cases hhead : s.head with
    | branch full =>
      rw [hhead] at h
      cases h
      exact RefName.not_inPlace_shorten full
    | detached hex =>
      rw [hhead] at h
      cases h
    | damaged text =>
      rw [hhead] at h
      cases h

/-- A call of which something is overlooked succeeds on the recorder alone or on the repository alone,
or they report different branches as checked out. -/
theorem differs [Git.Merger] {call : Call} (h : Mirrors names labels r s g)
    (hnames : Compatible names labels) (hfits : call.Fits names labels)
    (hover : r.Overlooks g call) :
    ¬(call.succeeds r = call.succeeds g ∧ SameReports (call.after r) (call.after g)) := by
  rintro ⟨hsame, hreports⟩
  cases call with
  | createBranch name start =>
    obtain ⟨hname, hstart⟩ := hfits
    obtain ⟨hfrom, hover⟩ := hover
    obtain ⟨summaries, hsummaries⟩ := Option.isSome_iff_exists.1 hfrom
    have hr : on (WorkTree.createBranch name start) r = _ := Recorder.on_createBranch
    rw [hsummaries] at hr
    rcases hover with hthere | hplace
    · have hg : on (WorkTree.createBranch name start) g = _ :=
        h.refused_present hnames hname hstart hfrom hthere
      rw [Call.succeeds, Call.succeeds, hr, hg] at hsame
      cases hsame
    · have hcurrent := hreports.current
      rw [Call.after, hr] at hcurrent
      exact not_inPlace_of_currentBranch hcurrent.symm hplace
  | checkout name =>
    obtain ⟨hno, hfound⟩ := hover
    have hvalid := hnames.branch name hfits
    obtain ⟨target, snapshot, htarget, hsnapshot⟩ := h.exists_resolve hnames hvalid hno hfound
    have hr : on (WorkTree.checkout name) r = _ := Recorder.on_checkout
    have hg : on (WorkTree.checkout name) g = _ :=
      h.exists_checkout_of_resolve hvalid htarget hsnapshot
    rw [hno] at hr
    rw [Call.succeeds, Call.succeeds, hr, hg] at hsame
    cases hsame
  | commit message time =>
    obtain ⟨e, g', hg⟩ : ∃ e g', on (WorkTree.commit message time) g = (.error e, g') :=
      h.refused_commit hover
    rw [Call.succeeds, Call.succeeds, Recorder.on_commit, hg] at hsame
    cases hsame
  | tag label message time =>
    obtain ⟨hnew, hover⟩ := hover
    obtain ⟨e, hg⟩ : ∃ e, on (WorkTree.tag label message time) g = (.error e, g) :=
      h.refused_tag hnames hfits.1 (.inr hover)
    rw [Call.succeeds, Call.succeeds, Recorder.on_tag, if_neg hnew, hg] at hsame
    cases hsame
  | _ => exact hover.elim

/-- A recorder and its mirror agree on a run exactly if nothing of it is overlooked. -/
theorem agree_iff [Git.Merger] {calls : List Call} (h : Mirrors names labels r s g)
    (hnames : Compatible names labels) (hfits : ∀ call ∈ calls, call.Fits names labels) :
    Agree r g calls ↔ r.Heeds g calls := by
  induction calls generalizing r s g with
  | nil => exact iff_of_true trivial trivial
  | cons call calls ih =>
    obtain ⟨hfirst, hrest⟩ := List.forall_mem_cons.1 hfits
    rw [Agree, Recorder.Heeds]
    by_cases hover : r.Overlooks g call
    · have hdiffers := h.differs hnames hfirst hover
      exact iff_of_false (fun hagree => hdiffers ⟨hagree.1, hagree.2.1⟩) fun hheeds => hheeds.1 hover
    · obtain ⟨hsame, t, hmirrors⟩ := h.keeps hnames hfirst hover
      rw [and_iff_right hsame, and_iff_right hmirrors.sameReports, and_iff_right hover]
      exact ih hmirrors hrest

end Mirrors

/-! ### New repositories -/

/-- A recorder and a repository that is made in an empty directory agree on a run of branches,
checkouts, commits and tags exactly if nothing of it is overlooked. -/
theorem agree_iff_heeds [Git.Merger] {names labels : List String} {calls : List Call}
    {i : Git.Identity} {t v : FileTree} {base root : Location} {path : String}
    (hnames : Compatible names labels) (hmain : mainBranch ∈ names)
    (hcalls : ∀ call ∈ calls, call.Fits names labels) (hi : i.Accepted) (ht : t.WellFormed)
    (hslashless : t.Slashless) (hbase : FileTree.Named base)
    (hdirectory : on (FileTree.createDirectory base path) t = (.ok root, v))
    (hempty : FileTree.Empty root v) :
    ∃ g u, on (Repository.create base path i) t = (.ok g, u) ∧
      (Agree Recorder.new g calls ↔ Recorder.new.Heeds g calls) := by
  obtain ⟨hname, hemail⟩ := nul_notMem_of_accepted hi
  obtain ⟨g, u, hcreate, -, rfl, hsketched⟩ :=
    Sketched.exists_create ht hslashless hbase hname hemail hdirectory hempty
  have hmirrors : Mirrors names labels Recorder.new (.new mainBranch) g :=
    { ready := (hsketched []).ready
      accepted := hi
      flat := (hsketched []).flat
      index := (hsketched []).index
      head := rfl
      branches := fun key => by simp [Store.new, Recorder.new, Recorder.history?]
      named := by
        rintro b (rfl | hb)
        · exact ⟨hmain, by decide⟩
        · simp [Recorder.new, Recorder.history?] at hb
      tags := rfl
      listed := fun _ hlabel => nomatch hlabel }
  exact ⟨g, u, hcreate, hmirrors.agree_iff hnames hcalls⟩

theorem compatible_dev : Compatible ["main", "dev"] ["v1.0.0"] where
  branch := by
    have hnames : ∀ name ∈ ["main", "dev"], RefName.branch? name = some (RefName.headsPlace ++ name) ∧
        RefName.mayBegin name = true ∧ name ≠ "HEAD" := by
      decide +kernel
    intro name hname
    obtain ⟨hkept, hbegins, hne⟩ := hnames name hname
    exact ⟨hkept, hbegins, hne⟩
  branchesApart := by decide +kernel
  tag := by
    intro label hlabel
    rw [List.mem_singleton.1 hlabel]
    exact ⟨by decide, by decide +kernel⟩
  tagsApart := by decide +kernel

theorem Repository.not_describes {g : Repository} {name : String}
    (h : Revision.describedDigits? (full name).toList = none) : ¬g.Describes name := by
  rintro ⟨s, target, -, -, hdescribed, -⟩
  unfold Revision.described? at hdescribed
  split_ifs at hdescribed
  rw [h] at hdescribed
  cases hdescribed

/-- A branch is asked for before it is there, and a tag is made twice. -/
def repeated : List Call :=
  [.checkout "dev", .commit "start" "2024-01-01T00:00:00+00:00", .createBranch "dev" "main",
    .tag "v1.0.0" "v1.0.0" "2024-01-01T00:00:01+00:00",
    .tag "v1.0.0" "v1.0.0" "2024-01-01T00:00:02+00:00", .checkout "main"]

section

attribute [local instance] Git.Merger.builtIn

/-- Both refuse the branch that is not there yet and the tag that is there already. -/
theorem agree_repeated : Compatible ["main", "dev"] ["v1.0.0"] ∧
    (∀ call ∈ repeated, call.Fits ["main", "dev"] ["v1.0.0"]) ∧
    ∃ g u, on (Repository.create [] "repo" ⟨"Ada", "ada@example.com"⟩) (.new "/work") = (.ok g, u) ∧
      Agree Recorder.new g repeated := by
  have hfits : ∀ call ∈ repeated, call.Fits ["main", "dev"] ["v1.0.0"] := by decide +kernel
  obtain ⟨g, u, hcreate, hagree⟩ := agree_iff_heeds compatible_dev (by decide) hfits accepted_ada
    FileTree.wellFormed_work (FileTree.slashless_new _) FileTree.named_nil on_createDirectory_new
    empty_repo
  have hheeds : Recorder.new.Heeds g repeated := by
    have hmessage : '\x00' ∉ "start".toList := by decide
    refine ⟨?_, hmessage, ?_, ?_, ?_, ?_, trivial⟩
    · exact fun hover => hover.2.elim (by decide) (not_describes (by decide +kernel))
    · exact fun hover => absurd hover.2 (by decide +kernel)
    · exact fun hover => absurd hover.2 (by decide +kernel)
    · exact fun hover => absurd hover.1 (by decide +kernel)
    · exact fun hover => absurd hover.1 (by decide +kernel)
  exact ⟨compatible_dev, hfits, g, u, hcreate, hagree.2 hheeds⟩

/-- A tag before the first commit, and a branch that is created again. -/
def overlooked : List Call :=
  [.tag "v1.0.0" "v1.0.0" "2024-01-01T00:00:00+00:00",
    .commit "start" "2024-01-01T00:00:00+00:00", .createBranch "dev" "main",
    .commit "one" "2024-01-01T00:00:00+00:00", .createBranch "main" "dev"]

/-- The recorder makes the tag, and the repository refuses it. -/
theorem not_agree_overlooked : Compatible ["main", "dev"] ["v1.0.0"] ∧
    (∀ call ∈ overlooked, call.Fits ["main", "dev"] ["v1.0.0"]) ∧
    on (Repository.create [] "repo" ⟨"Ada", "ada@example.com"⟩) (.new "/work") =
      (.ok fresh, fresh.files) ∧
    ¬Agree Recorder.new fresh overlooked := by
  refine ⟨compatible_dev, by decide +kernel, on_create_fresh, fun hagree => ?_⟩
  have hg : on (WorkTree.tag "v1.0.0" "v1.0.0" "2024-01-01T00:00:00+00:00") fresh =
      (.error (.configuration (.tagBeforeCommit "v1.0.0")), fresh) :=
    Repository.on_tag (s := .new mainBranch) rfl _ _ _
  have hsame := hagree.1
  rw [Call.succeeds, Call.succeeds, Recorder.on_tag, if_neg (by decide), hg] at hsame
  cases hsame

end

end ReleaseHistory
