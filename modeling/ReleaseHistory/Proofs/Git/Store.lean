import ReleaseHistory.Proofs.FileTree.View
import ReleaseHistory.Proofs.Git.History
import ReleaseHistory.Proofs.Git.RefName

/-!
# Nothing is lost from a store

A store keeps what another one had if its history has grown, every branch is where it was or at a
descendant, and every tag is what it was. Creating branches and tags, moving a branch forward and
committing give stores that keep what there was.
-/

namespace ReleaseHistory.Git.Store

open History (Ancestor Extends Within Alike)

variable {s t u : Store} {name branch : String} {n m : Nat} {c : CommitObject}
  {objects : List Encoded}

/-! ### Sound stores -/

/-- A store with a sound history, whose objects are among some, whose branches and tags are at
commits of it, and whose tags are under their own names. -/
structure Sound (objects : List Encoded) (s : Store) : Prop where
  history : s.history.Sound
  within : s.history.Within objects
  branches : ∀ name n, s.branches.lookup name = some n → n < s.history.commits.size
  tags : ∀ name tag, s.tags.lookup name = some tag → tag.target < s.history.commits.size
  tagNames : ∀ name tag, s.tags.lookup name = some tag → RefName.tag? tag.name = some name

theorem sound_new (objects : List Encoded) (branch : String) : Sound objects (new branch) where
  history := History.sound_empty
  within := fun _ _ hc => nomatch hc
  branches := fun _ _ hn => nomatch hn
  tags := fun _ _ ht => nomatch ht
  tagNames := fun _ _ ht => nomatch ht

/-- What a store had is still there: commits, branches at descendants, and tags. -/
structure Keeps (s t : Store) : Prop where
  history : s.history.Extends t.history
  branches : ∀ name n, s.branches.lookup name = some n →
    ∃ m, t.branches.lookup name = some m ∧ t.history.Ancestor n m
  tags : ∀ name tag, s.tags.lookup name = some tag → t.tags.lookup name = some tag

theorem Keeps.refl : Keeps s s where
  history := .refl
  branches := fun _ n hn => ⟨n, hn, .refl⟩
  tags := fun _ _ ht => ht

theorem Keeps.trans (hst : Keeps s t) (htu : Keeps t u) : Keeps s u where
  history := hst.history.trans htu.history
  branches := by
    intro name n hn
    obtain ⟨m, hm, hnm⟩ := hst.branches name n hn
    obtain ⟨k, hk, hmk⟩ := htu.branches name m hm
    exact ⟨k, hk, (htu.history.ancestor hnm).trans hmk⟩
  tags := fun name tag htag => htu.tags name tag (hst.tags name tag htag)

theorem Sound.commitOf?_lt (hs : s.Sound objects) (h : s.commitOf? name = some n) :
    n < s.history.commits.size := by
  unfold commitOf? at h
  split at h
  · rename_i hm
    cases h
    exact hs.branches name n hm
  · obtain ⟨tag, htag, rfl⟩ := Option.map_eq_some_iff.1 h
    exact hs.tags name tag htag

theorem Sound.find?_lt (hs : s.Sound objects) {hex : String} (h : s.history.find? hex = some n) :
    n < s.history.commits.size := by
  obtain ⟨hn, -⟩ := List.findIdx?_eq_some_iff_getElem.1 h
  rw [← hs.history.size_ids]
  exact hn

theorem Sound.headCommit_lt (hs : s.Sound objects) (h : s.headCommit = .ok (some n)) :
    n < s.history.commits.size := by
  unfold headCommit at h
  split at h
  · exact hs.commitOf?_lt (Except.ok.inj h)
  · split at h
    · rename_i hfind
      cases h
      exact hs.find?_lt hfind
    · cases h
  · cases h

theorem Sound.tip?_lt (hs : s.Sound objects) (h : s.tip? branch = some n) :
    n < s.history.commits.size := by
  obtain ⟨name, -, hname⟩ := Option.bind_eq_some_iff.1 h
  exact hs.branches name n hname

/-! ### Moving a branch -/

theorem lookup_setTip (s : Store) (name : String) (n : Nat) (key : String) :
    (s.setTip name n).branches.lookup key =
      if key = name then some n else s.branches.lookup key := by
  unfold setTip
  split
  · rename_i hsame
    split
    · rename_i hkey
      rw [hkey, hsame]
    · rfl
  · rw [List.lookup_cons, FileTree.lookup_filter fun k => decide (k ≠ name)]
    by_cases hkey : key = name
    · simp [hkey]
    · simp [hkey, beq_eq_false_iff_ne.2 hkey]

@[simp] theorem setTip_history (s : Store) (name : String) (n : Nat) :
    (s.setTip name n).history = s.history := by
  unfold setTip
  split <;> rfl

@[simp] theorem setTip_tags (s : Store) (name : String) (n : Nat) :
    (s.setTip name n).tags = s.tags := by
  unfold setTip
  split <;> rfl

@[simp] theorem setTip_head (s : Store) (name : String) (n : Nat) :
    (s.setTip name n).head = s.head := by
  unfold setTip
  split <;> rfl

@[simp] theorem setTip_index (s : Store) (name : String) (n : Nat) :
    (s.setTip name n).index = s.index := by
  unfold setTip
  split <;> rfl

theorem Sound.setTip (hs : s.Sound objects) (hn : n < s.history.commits.size) (name : String) :
    (s.setTip name n).Sound objects where
  history := by rw [setTip_history]; exact hs.history
  within := by rw [setTip_history]; exact hs.within
  branches := by
    intro key m hm
    rw [lookup_setTip] at hm
    rw [setTip_history]
    split at hm
    · cases hm
      exact hn
    · exact hs.branches key m hm
  tags := by
    intro key tag htag
    rw [setTip_tags] at htag
    rw [setTip_history]
    exact hs.tags key tag htag
  tagNames := by
    rw [setTip_tags]
    exact hs.tagNames

theorem keeps_setTip (hforward : ∀ m, s.branches.lookup name = some m → s.history.Ancestor m n) :
    Keeps s (s.setTip name n) where
  history := by rw [setTip_history]; exact .refl
  branches := by
    intro key m hm
    rw [lookup_setTip, setTip_history]
    split
    · rename_i hkey
      rw [hkey] at hm
      exact ⟨n, rfl, hforward m hm⟩
    · exact ⟨m, hm, .refl⟩
  tags := by
    intro key tag htag
    rwa [setTip_tags]

theorem mem_names_setTip {key : String} (hkey : key ∈ (s.setTip name n).branches.map (·.1)) :
    key = name ∨ key ∈ s.branches.map (·.1) := by
  unfold setTip at hkey
  split at hkey
  · exact .inr hkey
  · rcases List.mem_cons.1 hkey with heq | hmem
    · exact .inl heq
    · obtain ⟨entry, hentry, rfl⟩ := List.mem_map.1 hmem
      exact .inr (List.mem_map_of_mem (List.mem_filter.1 hentry).1)

/-! ### New branches and tags -/

theorem hasRoom_iff {names : List String} :
    hasRoom name names = true ↔ ∀ b ∈ names, b ≠ name ∧ RefName.collide b name = false := by
  rw [hasRoom, Bool.not_eq_true', List.any_eq_false]
  simp

/-- There is room for a reference only if there is none of its name. -/
theorem lookup_eq_none_of_hasRoom {α : Type} {entries : List (String × α)}
    (h : hasRoom name (entries.map (·.1)) = true) : entries.lookup name = none := by
  rw [List.lookup_eq_none_iff]
  intro entry hentry
  have hne := (hasRoom_iff.1 h entry.1 (List.mem_map_of_mem hentry)).1
  simpa using Ne.symm hne

theorem createBranch?_eq_some (h : s.createBranch? branch n = some t) :
    ∃ name, RefName.branch? branch = some name ∧ s.branches.lookup name = none ∧
      t = s.setTip name n := by
  unfold createBranch? at h
  split at h
  · cases h
  · rename_i name hname
    split at h
    · rename_i hroom
      simp only [Bool.and_eq_true] at hroom
      exact ⟨name, hname, lookup_eq_none_of_hasRoom hroom.2, (Option.some.inj h).symm⟩
    · cases h

theorem keeps_createBranch (h : s.createBranch? branch n = some t) : Keeps s t := by
  obtain ⟨name, -, hnone, rfl⟩ := createBranch?_eq_some h
  apply keeps_setTip
  intro m hm
  rw [hnone] at hm
  cases hm

theorem createTag?_eq_some {tag : TagObject} (h : s.createTag? tag = some t) :
    ∃ name, RefName.tag? tag.name = some name ∧ s.tags.lookup name = none ∧
      t = { s with tags := (name, tag) :: s.tags } := by
  unfold createTag? at h
  split at h
  · cases h
  · rename_i name hname
    split at h
    · rename_i hroom
      simp only [Bool.and_eq_true] at hroom
      exact ⟨name, hname, lookup_eq_none_of_hasRoom hroom.2, (Option.some.inj h).symm⟩
    · cases h

theorem Sound.createTag (hs : s.Sound objects) {tag : TagObject}
    (htarget : tag.target < s.history.commits.size) (h : s.createTag? tag = some t) :
    t.Sound objects := by
  obtain ⟨name, hname, -, rfl⟩ := createTag?_eq_some h
  refine ⟨hs.history, hs.within, hs.branches, ?_, ?_⟩
  · intro key other hother
    rw [List.lookup_cons] at hother
    split at hother
    · cases hother
      exact htarget
    · exact hs.tags key other hother
  · intro key other hother
    rw [List.lookup_cons] at hother
    split at hother
    · rename_i hkey
      cases hother
      rw [hname, eq_of_beq hkey]
    · exact hs.tagNames key other hother

theorem keeps_createTag {tag : TagObject} (h : s.createTag? tag = some t) : Keeps s t := by
  obtain ⟨name, -, hnone, rfl⟩ := createTag?_eq_some h
  refine ⟨.refl, fun key m hm => ⟨m, hm, .refl⟩, ?_⟩
  intro key other hother
  have hne : key ≠ name := by
    rintro rfl
    rw [hnone] at hother
    cases hother
  rw [List.lookup_cons, beq_eq_false_iff_ne.2 hne]
  exact hother

/-! ### Committing -/

/-- The commit that is checked out is the tip of the branch that is checked out. -/
theorem headCommit_of_branch (hhead : s.head = .branch name) (hm : s.branches.lookup name = some m) :
    s.headCommit = .ok (some m) := by
  rw [headCommit, hhead]
  simp only [commitOf?, hm]

theorem advance?_eq_some (h : s.advance? n = some t) :
    (∃ name, s.head = .branch name ∧ t = s.setTip name n) ∨
      ∃ hex, s.head = .detached hex ∧
        t = { s with head := .detached (hexId (s.history.id n)) } := by
  unfold advance? at h
  split at h
  · rename_i name hhead
    simp only [Option.ite_none_right_eq_some] at h
    exact .inl ⟨name, hhead, (Option.some.inj h.2).symm⟩
  · rename_i hex hhead
    exact .inr ⟨hex, hhead, (Option.some.inj h).symm⟩
  · cases h

theorem Sound.grow (hs : s.Sound objects) {g : History} (hg : g.Sound) (hwithin : g.Within objects)
    (hextends : s.history.Extends g) : Sound objects { s with history := g } where
  history := hg
  within := hwithin
  branches := fun name n hn => Nat.lt_of_lt_of_le (hs.branches name n hn) hextends.size_le
  tags := fun name tag htag => Nat.lt_of_lt_of_le (hs.tags name tag htag) hextends.size_le
  tagNames := hs.tagNames

theorem commit?_spec (hs : s.Sound objects) (hdistinct : Distinct objects)
    (hparents : ∀ p ∈ c.parents, p < s.history.commits.size)
    (hobject : s.history.encode c ∈ objects) {id : String} (h : s.commit? c = some (id, t)) :
    ∃ n d, t.history.get? n = some d ∧ Alike c d ∧ t.Sound objects ∧ Keeps s t ∧
      t.tags = s.tags ∧ t.index = s.index ∧
      (∀ m e, t.history.get? m = some e → s.history.get? m = some e ∨ e = c) ∧
      ∀ name, s.head = .branch name → t.head = s.head ∧ t.branches.lookup name = some n := by
  simp only [commit?, Option.ite_none_right_eq_some, Bool.and_eq_true, decide_eq_true_eq] at h
  obtain ⟨⟨⟨hstorable, -⟩, hfirst⟩, h⟩ := h
  obtain ⟨n, g, d, hadd, hg, hextends, hwithin, hget, halike, hold⟩ :=
    History.add_spec hs.history hs.within hdistinct hstorable hparents hobject
  rw [hadd] at h
  obtain ⟨u, hadvance, hu⟩ := Option.map_eq_some_iff.1 h
  obtain ⟨-, rfl⟩ := Prod.mk.inj hu
  have hgrown := hs.grow hg hwithin hextends
  have hn : n < g.commits.size := History.get?_isSome_iff.1 (by rw [hget]; rfl)
  have hkeeps : Keeps s { s with history := g } :=
    ⟨hextends, fun _ m hm => ⟨m, hm, .refl⟩, fun _ _ htag => htag⟩
  rcases advance?_eq_some hadvance with ⟨name, hhead, rfl⟩ | ⟨hex, hhead, rfl⟩
  · replace hhead : s.head = .branch name := hhead
    have hforward : ∀ m, s.branches.lookup name = some m → g.Ancestor m n := by
      intro m hm
      have hmember : m ∈ c.parents := by
        rw [headCommit_of_branch hhead hm] at hfirst
        exact List.mem_of_head? hfirst
      rw [halike.parents, ← History.parents_eq hget] at hmember
      exact .of_parent hmember
    have hmoved : Keeps { s with history := g } (Store.setTip { s with history := g } name n) :=
      keeps_setTip hforward
    refine ⟨n, d, by rwa [setTip_history], halike, hgrown.setTip hn name, hkeeps.trans hmoved,
      setTip_tags _ name n, setTip_index _ name n, by rwa [setTip_history], ?_⟩
    intro name' hname'
    rw [hhead] at hname'
    cases hname'
    rw [lookup_setTip, if_pos rfl, setTip_head]
    exact ⟨rfl, rfl⟩
  · refine ⟨n, d, hget, halike,
      ⟨hgrown.history, hgrown.within, hgrown.branches, hgrown.tags, hgrown.tagNames⟩,
      ⟨hextends, fun _ m hm => ⟨m, hm, .refl⟩, fun _ _ htag => htag⟩, rfl, rfl, hold, ?_⟩
    intro name' hname'
    replace hhead : s.head = .detached hex := hhead
    rw [hhead] at hname'
    cases hname'

/-- A store with one more commit, at the tip of a branch. -/
def committed (s : Store) (name : String) (c : CommitObject) : Store :=
  ({ s with history := (s.history.add c).2 } : Store).setTip name (s.history.add c).1

/-- A commit that can be stored is made on the branch that is checked out, if it comes after what is
checked out. -/
theorem commit?_eq_committed (hhead : s.head = .branch name)
    (hroom : hasRoom name ((s.branches.map (·.1)).filter (· ≠ name)) = true)
    (hstorable : c.signature.isStorable = true) (hmessage : '\x00' ∉ c.message.toList)
    (hparents : c.parents.head? = s.commitOf? name) :
    ∃ id, s.commit? c = some (id, s.committed name c) := by
  have htip : s.headCommit = .ok (s.commitOf? name) := by rw [headCommit, hhead]
  have hnull : c.message.toList.contains '\x00' = false := by simpa using hmessage
  refine ⟨hexId ((s.history.add c).2.id (s.history.add c).1), ?_⟩
  simp only [commit?, htip, hstorable, hnull, hparents, advance?, hhead, committed]
  rw [if_pos (by simp), if_pos hroom]
  rfl

/-- What a commit on a branch that is checked out needs, and what it leaves. -/
theorem committed_of_commit? {id : String} (hhead : s.head = .branch name)
    (h : s.commit? c = some (id, t)) :
    hasRoom name ((s.branches.map (·.1)).filter (· ≠ name)) = true ∧
      c.signature.isStorable = true ∧ t = s.committed name c := by
  simp only [commit?, Option.ite_none_right_eq_some, Bool.and_eq_true] at h
  obtain ⟨⟨⟨hstorable, -⟩, -⟩, h⟩ := h
  obtain ⟨u, hu, heq⟩ := Option.map_eq_some_iff.1 h
  obtain rfl := (Prod.mk.inj heq).2
  have hadvance : ({ s with history := (s.history.add c).2 } : Store).advance? (s.history.add c).1 =
      if hasRoom name ((s.branches.map (·.1)).filter (· ≠ name)) then some (s.committed name c)
      else none := by
    simp only [advance?, hhead]
    rw [committed, ← hhead]
  rw [hadvance, Option.ite_none_right_eq_some] at hu
  exact ⟨hu.1, hstorable, (Option.some.inj hu.2).symm⟩

/-! ### Files of a store -/

/-- A text in which a character that is neither a digit of a name nor a blank comes before the first
blank does not name a commit. -/
theorem ofText_ne_detached {text : String} {cs rest : List Char} {c : Char}
    (htext : text.toList = cs ++ c :: rest) (hcs : ∀ d ∈ cs, isSpace d = false)
    (hdigit : Head.isHexDigit c = false) (hspace : isSpace c = false) (hex : String) :
    Head.ofText text ≠ .detached hex := by
  have hno : ((text.toList.take 40).length = 40 && (text.toList.take 40).all Head.isHexDigit &&
      (text.toList.drop 40).head?.all isSpace) = false := by
    by_cases hlength : cs.length < 40
    · have hmem : c ∈ text.toList.take 40 := by
        rw [htext, List.take_append, List.take_of_length_le (Nat.le_of_lt hlength)]
        obtain ⟨n, hn⟩ := Nat.exists_eq_add_of_lt hlength
        rw [show 40 - cs.length = n + 1 by omega, List.take_succ_cons]
        simp
      have hall : (text.toList.take 40).all Head.isHexDigit = false :=
        List.all_eq_false.2 ⟨c, hmem, by simp [hdigit]⟩
      rw [hall, Bool.and_false, Bool.false_and]
    · have hdrop : text.toList.drop 40 = cs.drop 40 ++ c :: rest := by
        rw [htext, List.drop_append_of_le_length (Nat.le_of_not_lt hlength)]
      have hhead : (text.toList.drop 40).head?.all isSpace = false := by
        rw [hdrop]
        cases hcs' : cs.drop 40 with
        | nil => simp [hspace]
        | cons d ds =>
          have hd : d ∈ cs := List.mem_of_mem_drop (by rw [hcs']; exact List.mem_cons_self ..)
          simp [hcs d hd]
      rw [hhead, Bool.and_false]
  unfold Head.ofText
  split
  · dsimp only
    split <;> simp
  · rw [if_neg (by rw [hno]; exact Bool.false_ne_true)]
    simp

/-- A store takes no text as its own file but for what is checked out, and for a branch the name of a
commit. -/
theorem writeFile?_eq_none {path text : String} (hpath : path ≠ headFile)
    (htext : ∀ hex, Head.ofText text ≠ .detached hex) (s : Store) : s.writeFile? path text = none := by
  unfold writeFile?
  rw [if_neg hpath]
  split
  · split
    · rename_i hex hhex
      exact absurd hhex (htext hex)
    · rfl
  · rfl

end ReleaseHistory.Git.Store
