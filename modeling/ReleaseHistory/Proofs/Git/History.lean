import ReleaseHistory.Git.History
import ReleaseHistory.Proofs.Git.Object

/-!
# Ancestry in a growing history

In a sound history parents come before their children, and every commit has the name of its stored
form, a name of its own. What is marked going back from a commit is that commit and its ancestors.
A history only grows: a commit that is added leaves the others as they are, and is found again as a
commit with the same parents, the same signature and the same message.
-/

namespace ReleaseHistory.Git

/-- No two of some objects have the same name. -/
def Distinct (objects : List Encoded) : Prop :=
  ∀ a ∈ objects, ∀ b ∈ objects, a.id = b.id → a = b

/-- Two of some objects have the same name. -/
def Collision (objects : List Encoded) : Prop := ∃ a ∈ objects, ∃ b ∈ objects, a ≠ b ∧ a.id = b.id

theorem collision_or_distinct (objects : List Encoded) : Collision objects ∨ Distinct objects := by
  by_cases hcollision : Collision objects
  · exact .inl hcollision
  · refine .inr fun a ha b hb hid => ?_
    by_contra hne
    exact hcollision ⟨a, ha, b, hb, hne, hid⟩

namespace History

variable {h g k : History} {a b n m p : Nat} {c d e : CommitObject} {marked : List Nat}
  {objects : List Encoded}

/-! ### Ancestors -/

/-- A commit is another one or an ancestor of it. -/
def Ancestor (h : History) : Nat → Nat → Prop := Relation.ReflTransGen fun p n => p ∈ h.parents n

theorem Ancestor.refl : h.Ancestor a a := Relation.ReflTransGen.refl

theorem Ancestor.trans (hab : h.Ancestor a b) (hbn : h.Ancestor b n) : h.Ancestor a n :=
  Relation.ReflTransGen.trans hab hbn

theorem Ancestor.of_parent (hp : p ∈ h.parents n) : h.Ancestor p n := Relation.ReflTransGen.single hp

/-- The commits have their own names, and parents come before their children. -/
structure Sound (h : History) : Prop where
  size_ids : h.ids.size = h.commits.size
  older : ∀ n p, p ∈ h.parents n → p < n
  named : ∀ n c, h.get? n = some c → h.ids[n]? = some (c.encode (c.parents.map h.id)).id
  distinct : h.ids.toList.Nodup
  storable : ∀ n c, h.get? n = some c → c.signature.isStorable = true

theorem sound_empty : Sound empty where
  size_ids := rfl
  older := fun _ _ hp => nomatch hp
  named := fun _ _ hc => nomatch hc
  distinct := List.nodup_nil
  storable := fun _ _ hc => nomatch hc

theorem get?_isSome_iff : (h.get? n).isSome = true ↔ n < h.commits.size := by
  simp [get?]

theorem parents_eq (hc : h.get? n = some c) : h.parents n = c.parents := by
  rw [parents, hc]

theorem parents_of_le (hn : h.commits.size ≤ n) : h.parents n = [] := by
  have hnone : h.get? n = none := Array.getElem?_eq_none hn
  rw [parents, hnone]

theorem Sound.ancestor_le (hs : h.Sound) (hab : h.Ancestor a b) : a ≤ b := by
  induction hab with
  | refl => exact Nat.le_refl a
  | tail _ hp ih => exact Nat.le_trans ih (Nat.le_of_lt (hs.older _ _ hp))

/-! ### Marking -/

theorem mem_close_of_mem (hm : m ∈ marked) : m ∈ h.close n marked := by
  induction n generalizing marked with
  | zero => exact hm
  | succ n ih =>
    rw [close]
    split
    · exact ih (List.mem_append_left _ hm)
    · exact ih hm

theorem exists_of_mem_close (ha : a ∈ h.close n marked) : ∃ m ∈ marked, h.Ancestor a m := by
  induction n generalizing marked with
  | zero => exact ⟨a, ha, .refl⟩
  | succ n ih =>
    rw [close] at ha
    split at ha
    · rename_i hmarked
      obtain ⟨m, hm, ham⟩ := ih ha
      rcases List.mem_append.1 hm with hm | hm
      · exact ⟨m, hm, ham⟩
      · have hparent : m ∈ h.parents n := List.mem_eraseDups.1 (List.mem_filter.1 hm).1
        exact ⟨n, List.contains_iff_mem.1 hmarked, ham.trans (.of_parent hparent)⟩
    · exact ih ha

theorem parents_mem_close (hs : h.Sound)
    (hclosed : ∀ m ∈ marked, n ≤ m → ∀ p ∈ h.parents m, p ∈ marked) :
    ∀ m ∈ h.close n marked, ∀ p ∈ h.parents m, p ∈ h.close n marked := by
  induction n generalizing marked with
  | zero => exact fun m hm => hclosed m hm (Nat.zero_le m)
  | succ n ih =>
    rw [close]
    split
    · apply ih
      intro m hm hle p hp
      rcases List.mem_append.1 hm with hmarked | hnew
      · rcases Nat.eq_or_lt_of_le hle with rfl | hlt
        · -- the parents of the commit that it is the turn of
          by_cases hin : p ∈ marked
          · exact List.mem_append_left _ hin
          · exact List.mem_append_right _
              (List.mem_filter.2 ⟨List.mem_eraseDups.2 hp, by simp [hin]⟩)
        · exact List.mem_append_left _ (hclosed m hmarked hlt p hp)
      · have hparent : m ∈ h.parents n := List.mem_eraseDups.1 (List.mem_filter.1 hnew).1
        exact absurd (hs.older n m hparent) (Nat.not_lt.2 hle)
    · rename_i hmarked
      apply ih
      intro m hm hle
      have hne : m ≠ n := by
        rintro rfl
        exact hmarked (List.contains_iff_mem.2 hm)
      exact hclosed m hm (Nat.lt_of_le_of_ne hle (Ne.symm hne))

theorem mem_reachable_iff (hs : h.Sound) : a ∈ h.reachable n ↔ h.Ancestor a n := by
  constructor
  · intro ha
    obtain ⟨m, hm, ham⟩ := exists_of_mem_close ha
    rwa [List.mem_singleton.1 hm] at ham
  · have hstart : ∀ m ∈ [n], h.commits.size ≤ m → ∀ p ∈ h.parents m, p ∈ [n] := by
      intro m _ hle p hp
      rw [parents_of_le hle] at hp
      cases hp
    have hclosed := parents_mem_close hs hstart
    intro han
    induction han using Relation.ReflTransGen.head_induction_on with
    | refl => exact mem_close_of_mem (List.mem_singleton_self n)
    | head hp _ ih => exact hclosed _ ih _ hp

theorem isAncestor_iff (hs : h.Sound) : h.isAncestor a b = true ↔ a ≠ b ∧ h.Ancestor a b := by
  rw [isAncestor, Bool.and_eq_true, decide_eq_true_eq, List.contains_iff_mem, mem_reachable_iff hs]

/-! ### Growth -/

/-- A history with the commits of another one at its beginning. -/
structure Extends (h g : History) : Prop where
  commits : h.commits.toList <+: g.commits.toList
  ids : h.ids.toList <+: g.ids.toList

theorem Extends.refl : Extends h h := ⟨List.prefix_refl _, List.prefix_refl _⟩

theorem Extends.trans (hg : Extends h g) (hk : Extends g k) : Extends h k :=
  ⟨hg.commits.trans hk.commits, hg.ids.trans hk.ids⟩

theorem getElem?_of_prefix {α : Type} {as bs : List α} {x : α} (h : as <+: bs)
    (hx : as[n]? = some x) : bs[n]? = some x := by
  obtain ⟨rest, rfl⟩ := h
  have hn : n < as.length := (List.getElem?_eq_some_iff.1 hx).1
  rwa [List.getElem?_append_left hn]

theorem Extends.get? (hg : Extends h g) (hc : h.get? n = some c) : g.get? n = some c := by
  rw [History.get?, ← Array.getElem?_toList] at hc ⊢
  exact getElem?_of_prefix hg.commits hc

theorem Extends.size_le (hg : Extends h g) : h.commits.size ≤ g.commits.size := hg.commits.length_le

theorem Extends.ancestor (hg : Extends h g) (hab : h.Ancestor a b) : g.Ancestor a b := by
  refine Relation.ReflTransGen.mono ?_ a b hab
  intro p n hp
  cases hc : h.get? n with
  | none =>
    rw [History.parents, hc] at hp
    cases hp
  | some c => rwa [parents_eq (hg.get? hc), ← parents_eq hc]

theorem id_eq_of_getElem? {i : ObjectId} (hi : h.ids[n]? = some i) : h.id n = i := by
  rw [History.id, Array.getD_eq_getD_getElem?, hi, Option.getD_some]

theorem Extends.id_eq (hg : Extends h g) (hn : n < h.ids.size) : g.id n = h.id n := by
  have hget : h.ids[n]? = some h.ids[n] := Array.getElem?_eq_getElem hn
  have hgrown : g.ids[n]? = some h.ids[n] := by
    rw [← Array.getElem?_toList] at hget ⊢
    exact getElem?_of_prefix hg.ids hget
  rw [id_eq_of_getElem? hget, id_eq_of_getElem? hgrown]

/-! ### Adding a commit -/

def parentIds (h : History) (c : CommitObject) : List ObjectId := c.parents.map h.id

/-- The stored form of a commit as it comes to a history. -/
def encode (h : History) (c : CommitObject) : Encoded := c.encode (h.parentIds c)

/-- The stored forms of all commits of a history are among some objects. -/
def Within (h : History) (objects : List Encoded) : Prop :=
  ∀ n c, h.get? n = some c → h.encode c ∈ objects

/-- Two commits that say the same: their parents, who made them when, their message and the name of
their snapshot. -/
structure Alike (c d : CommitObject) : Prop where
  parents : c.parents = d.parents
  signature : c.signature.text = d.signature.text
  message : c.message = d.message
  snapshot : c.snapshot.id = d.snapshot.id

theorem Sound.id_inj (hs : h.Sound) (ha : a < h.commits.size) (hb : b < h.commits.size)
    (hab : h.id a = h.id b) : a = b := by
  rw [← hs.size_ids] at ha hb
  have ha' := Array.getElem?_eq_getElem ha
  have hb' := Array.getElem?_eq_getElem hb
  rw [id_eq_of_getElem? ha', id_eq_of_getElem? hb'] at hab
  rw [← hab, ← ha', ← Array.getElem?_toList, ← Array.getElem?_toList] at hb'
  exact ((List.getElem?_inj hb hs.distinct).1 hb').symm

theorem Sound.parents_lt (hs : h.Sound) (hc : h.get? n = some c) (hp : p ∈ c.parents) :
    p < h.commits.size := by
  have hn : n < h.commits.size := get?_isSome_iff.1 (by rw [hc]; rfl)
  rw [← parents_eq hc] at hp
  exact Nat.lt_trans (hs.older n p hp) hn

theorem Extends.encode_eq (hg : Extends h g) (hs : h.Sound)
    (hc : ∀ p ∈ c.parents, p < h.commits.size) : g.encode c = h.encode c := by
  have hids : g.parentIds c = h.parentIds c := by
    apply List.map_congr_left
    intro p hp
    have hlt := hc p hp
    rw [← hs.size_ids] at hlt
    exact hg.id_eq hlt
  rw [encode, encode, hids]

/-- A history with a commit of a new name at its end. -/
def push (h : History) (c : CommitObject) : History :=
  ⟨h.commits.push c, h.ids.push (h.encode c).id⟩

theorem extends_push (h : History) (c : CommitObject) : Extends h (h.push c) where
  commits := by rw [push, Array.toList_push]; exact List.prefix_append ..
  ids := by rw [push, Array.toList_push]; exact List.prefix_append ..

theorem get?_push (h : History) (c : CommitObject) (n : Nat) :
    (h.push c).get? n = if n = h.commits.size then some c else h.get? n := by
  rw [get?, push, Array.getElem?_push]
  rfl

theorem Sound.push (hs : h.Sound) (hstorable : c.signature.isStorable = true)
    (hparents : ∀ p ∈ c.parents, p < h.commits.size) (hnew : (h.encode c).id ∉ h.ids.toList) :
    (h.push c).Sound where
  size_ids := by simp [History.push, hs.size_ids]
  older := by
    intro n p hp
    cases hget : (h.push c).get? n with
    | none =>
      rw [History.parents, hget] at hp
      cases hp
    | some d =>
      rw [parents_eq hget] at hp
      rw [get?_push] at hget
      split at hget
      · rename_i hn
        cases hget
        rw [hn]
        exact hparents p hp
      · rw [← parents_eq hget] at hp
        exact hs.older n p hp
  named := by
    intro n d hget
    have hextends := extends_push h c
    have hencode : ∀ d : CommitObject, (∀ p ∈ d.parents, p < h.commits.size) →
        d.encode (d.parents.map (h.push c).id) = h.encode d := fun d hd => hextends.encode_eq hs hd
    rw [get?_push] at hget
    split at hget
    · rename_i hn
      cases hget
      rw [hencode c hparents, hn, ← hs.size_ids]
      exact Array.getElem?_push_size
    · have hnamed := hs.named n d hget
      rw [hencode d fun p hp => hs.parents_lt hget hp]
      rw [← Array.getElem?_toList] at hnamed ⊢
      exact getElem?_of_prefix hextends.ids hnamed
  distinct := by
    rw [History.push, Array.toList_push]
    exact List.nodup_append.2 ⟨hs.distinct, List.nodup_singleton _, by
      intro i hi j hj
      rw [List.mem_singleton.1 hj]
      rintro rfl
      exact hnew hi⟩
  storable := by
    intro n d hget
    rw [get?_push] at hget
    split at hget
    · cases hget
      exact hstorable
    · exact hs.storable n d hget

theorem Within.push (hwithin : h.Within objects) (hs : h.Sound)
    (hparents : ∀ p ∈ c.parents, p < h.commits.size) (hobject : h.encode c ∈ objects) :
    (h.push c).Within objects := by
  intro n d hget
  rw [get?_push] at hget
  split at hget
  · cases hget
    rwa [(extends_push h c).encode_eq hs hparents]
  · rw [(extends_push h c).encode_eq hs fun p hp => hs.parents_lt hget hp]
    exact hwithin n d hget

/-- A commit is added under its number, or found under another one with the same name. -/
theorem add_eq (h : History) (c : CommitObject) :
    ((h.encode c).id ∉ h.ids.toList ∧ h.add c = (h.commits.size, h.push c)) ∨
      ∃ n, h.ids[n]? = some (h.encode c).id ∧ h.add c = (n, h) := by
  cases hfind : h.ids.toList.findIdx? (· = (h.encode c).id) with
  | none =>
    have hadd : h.add c = (h.commits.size, h.push c) := by
      unfold add
      rw [← parentIds, ← encode]
      dsimp only
      rw [hfind, push]
    refine .inl ⟨?_, hadd⟩
    intro hmem
    rw [List.findIdx?_eq_none_iff] at hfind
    have hne := hfind _ hmem
    simp at hne
  | some n =>
    have hadd : h.add c = (n, h) := by
      unfold add
      rw [← parentIds, ← encode]
      dsimp only
      rw [hfind]
    obtain ⟨hn, hid, -⟩ := List.findIdx?_eq_some_iff_getElem.1 hfind
    have hid' : h.ids.toList[n] = (h.encode c).id := of_decide_eq_true hid
    exact .inr ⟨n, by rw [← Array.getElem?_toList, List.getElem?_eq_getElem hn, hid'], hadd⟩

/-- A commit of a history to which one is added was there before or is the one. -/
theorem get?_add_cases {d : CommitObject} {n : Nat} (hget : (h.add c).2.get? n = some d) :
    h.get? n = some d ∨ d = c := by
  rcases add_eq h c with ⟨-, hadd⟩ | ⟨m, -, hadd⟩
  · rw [hadd, get?_push] at hget
    split at hget
    · exact .inr (Option.some.inj hget).symm
    · exact .inl hget
  · rw [hadd] at hget
    exact .inl hget

theorem eq_of_map_eq {α β : Type} {f : α → β} {as bs : List α}
    (hf : ∀ a ∈ as, ∀ b ∈ bs, f a = f b → a = b) (h : as.map f = bs.map f) : as = bs := by
  induction as generalizing bs with
  | nil => exact (List.map_eq_nil_iff.1 h.symm).symm
  | cons a as ih =>
    cases bs with
    | nil => cases h
    | cons b bs =>
      obtain ⟨hhead, htail⟩ := List.cons.inj h
      have hab := hf a (List.mem_cons_self ..) b (List.mem_cons_self ..) hhead
      have hrest := ih (fun x hx y hy => hf x (List.mem_cons_of_mem a hx) y
        (List.mem_cons_of_mem b hy)) htail
      rw [hab, hrest]

/-- Where no two objects have the same name, adding a commit gives the number of a commit that says
the same, in a history that has grown. -/
theorem add_spec (hs : h.Sound) (hwithin : h.Within objects) (hdistinct : Distinct objects)
    (hstorable : c.signature.isStorable = true) (hparents : ∀ p ∈ c.parents, p < h.commits.size)
    (hobject : h.encode c ∈ objects) :
    ∃ n g d, h.add c = (n, g) ∧ g.Sound ∧ Extends h g ∧ g.Within objects ∧ g.get? n = some d ∧
      Alike c d ∧ ∀ m e, g.get? m = some e → h.get? m = some e ∨ e = c := by
  have hcases : ∀ m e, (h.add c).2.get? m = some e → h.get? m = some e ∨ e = c :=
    fun m e => get?_add_cases
  rcases add_eq h c with ⟨hnew, hadd⟩ | ⟨n, hid, hadd⟩
  · rw [hadd] at hcases
    exact ⟨h.commits.size, h.push c, c, hadd, hs.push hstorable hparents hnew, extends_push h c,
      hwithin.push hs hparents hobject, by rw [get?_push, if_pos rfl], ⟨rfl, rfl, rfl, rfl⟩, hcases⟩
  · rw [hadd] at hcases
    have hn : n < h.commits.size := by
      rw [← hs.size_ids]
      exact (Array.getElem?_eq_some_iff.1 hid).1
    have hget : h.get? n = some h.commits[n] := Array.getElem?_eq_getElem hn
    have hsame : h.encode c = h.encode h.commits[n] := by
      apply hdistinct _ hobject _ (hwithin n _ hget)
      have hnamed := hs.named n _ hget
      rw [hid] at hnamed
      exact Option.some.inj hnamed
    obtain ⟨hsnapshot, hids, hsignature, hmessage⟩ :=
      CommitObject.encode_inj hstorable (hs.storable n _ hget) hsame
    have hsameParents : c.parents = h.commits[n].parents :=
      eq_of_map_eq (fun p hp q hq => hs.id_inj (hparents p hp) (hs.parents_lt hget hq)) hids
    exact ⟨n, h, h.commits[n], hadd, hs, .refl, hwithin, hget,
      ⟨hsameParents, hsignature, hmessage, hsnapshot⟩, hcases⟩

end History

end ReleaseHistory.Git
