import Mathlib.Data.List.Nodup
import ReleaseHistory.FileTree

/-!
# What is seen in a file tree

The entries of a tree and the files that its stores write from themselves make up what is seen at
its locations. In a well-formed tree this depends only on the entries on the way to a location, so
that putting an entry or taking entries away changes what is seen there and below, and nowhere else.
-/

namespace ReleaseHistory.FileTree

variable {t u : FileTree} {l k way rest : Location} {e : Entry} {s : Git.Store}

/-! ### Locations -/

theorem below?_eq_some : below? l way = some rest ↔ way = l ++ rest := by
  induction l generalizing way with
  | nil => simp [below?]
  | cons part l ih =>
    cases way with
    | nil => simp [below?]
    | cons w way =>
      by_cases h : part = w
      · simp [below?, h, ih]
      · simp [below?, h, Ne.symm h]

theorem below?_eq_none : below? l way = none ↔ ¬l <+: way := by
  rw [← Option.not_isSome_iff_eq_none, Option.isSome_iff_exists]
  simp only [below?_eq_some, List.IsPrefix, @eq_comm _ way]

/-- A proper part of the way to a location is on the way to what it is in. -/
theorem prefix_dropLast (hk : k <+: l) (hne : k ≠ l) : k <+: l.dropLast := by
  obtain ⟨w, rfl⟩ := hk
  have hw : w ≠ [] := by
    rintro rfl
    simp at hne
  rw [List.dropLast_append_of_ne_nil hw]
  exact List.prefix_append ..

/-! ### Entries -/

def own? (t : FileTree) (l : Location) : Option Entry := t.entries.lookup l

theorem own?_eq_none : t.own? l = none ↔ ∀ e, (l, e) ∉ t.entries := by
  simp only [own?, List.lookup_eq_none_iff, Prod.forall]
  grind

theorem mem_entries_of_own? (h : t.own? l = some e) : (l, e) ∈ t.entries := by
  obtain ⟨before, after, heq, -⟩ := List.lookup_eq_some_iff.1 h
  rw [heq]
  simp

theorem lookup_filter {α β : Type} [BEq α] [LawfulBEq α] (keep : α → Bool)
    (entries : List (α × β)) {k : α} :
    (entries.filter fun entry => keep entry.1).lookup k =
      if keep k then entries.lookup k else none := by
  induction entries with
  | nil => simp
  | cons head rest ih =>
    obtain ⟨l, e⟩ := head
    by_cases hk : k = l
    · subst hk
      cases hkeep : keep k <;> simp [hkeep, ih]
    · have hbeq : (k == l) = false := beq_eq_false_iff_ne.2 hk
      cases hkeep : keep l <;> simp [List.lookup_cons, hkeep, hbeq, ih]

theorem lookup_isSome_of_mem {α β : Type} [BEq α] [LawfulBEq α] {entries : List (α × β)} {k : α}
    (h : k ∈ entries.map Prod.fst) : (entries.lookup k).isSome = true := by
  rw [← Option.not_isNone, Bool.not_eq_true', ← Bool.not_eq_true, Option.isNone_iff_eq_none,
    List.lookup_eq_none_iff]
  intro hnone
  obtain ⟨entry, hentry, rfl⟩ := List.mem_map.1 h
  simpa using hnone entry hentry

theorem own?_put : (t.put l e).own? k = if k = l then some e else t.own? k := by
  simp only [own?, put, List.lookup_cons, lookup_filter fun k => decide (k ≠ l)]
  by_cases h : k = l
  · simp [h]
  · simp [h, beq_eq_false_iff_ne.2 h]

theorem own?_erase : (t.erase l).own? k = if l <+: k then none else t.own? k := by
  simp only [own?, erase, lookup_filter fun k => (below? l k).isNone]
  by_cases h : l <+: k
  · obtain ⟨rest, rfl⟩ := h
    simp [below?_eq_some.2 rfl]
  · simp [h, below?_eq_none.2 h]

/-! ### Well-formed trees -/

/-- A tree as it is on a disk: the path of its root is absolute, a location has one entry, stores
are not inside each other, and no entry takes the place of a file that a store writes itself. -/
structure WellFormed (t : FileTree) : Prop where
  mount_absolute : t.mount.startsWith "/" = true
  mount_open : t.mount.endsWith "/" = false
  distinct : (t.entries.map Prod.fst).Nodup
  root : t.own? [] = none
  apart : ∀ l k s s', t.own? l = some (.store s) → t.own? k = some (.store s') → l <+: k → l = k
  shown : ∀ l s part parts, t.own? l = some (.store s) →
    (s.file? (String.intercalate "/" (part :: parts))).isSome = true →
      t.own? (l ++ part :: parts) = none

theorem wellFormed_new {mount : String} (habsolute : mount.startsWith "/" = true)
    (hopen : mount.endsWith "/" = false) : (new mount).WellFormed where
  mount_absolute := habsolute
  mount_open := hopen
  distinct := List.nodup_nil
  root := rfl
  apart := fun _ _ _ _ h => nomatch h
  shown := fun _ _ _ _ h => nomatch h

theorem wellFormed_of_storeless (habsolute : t.mount.startsWith "/" = true)
    (hopen : t.mount.endsWith "/" = false) (hdistinct : (t.entries.map Prod.fst).Nodup)
    (hroot : t.own? [] = none) (h : ∀ l s, t.own? l ≠ some (.store s)) : t.WellFormed where
  mount_absolute := habsolute
  mount_open := hopen
  distinct := hdistinct
  root := hroot
  apart := fun l _ s _ hs => absurd hs (h l s)
  shown := fun l s _ _ hs => absurd hs (h l s)

theorem wellFormed_work : (new "/work").WellFormed :=
  wellFormed_new (by decide +kernel) (by decide +kernel)

theorem mem_entries_iff (h : (t.entries.map Prod.fst).Nodup) :
    (l, e) ∈ t.entries ↔ t.own? l = some e := by
  refine ⟨fun hmem => ?_, mem_entries_of_own?⟩
  cases hown : t.own? l with
  | none => exact absurd hmem (own?_eq_none.1 hown e)
  | some e' =>
    have heq := List.inj_on_of_nodup_map h hmem (mem_entries_of_own? hown) rfl
    exact (Prod.mk.inj heq).2 ▸ rfl

theorem storeAbove?_eq_none : t.storeAbove? l = none ↔
    ∀ k s part parts, (k, Entry.store s) ∈ t.entries → l ≠ k ++ part :: parts := by
  simp only [storeAbove?, List.findSome?_eq_none_iff, Prod.forall]
  constructor
  · rintro h k s part parts hmem rfl
    have := h k _ hmem
    simp [below?_eq_some.2 rfl] at this
  · intro h k e hmem
    split
    · rename_i s part parts hbelow
      exact absurd (below?_eq_some.1 hbelow) (h k s part parts hmem)
    · rfl

theorem storeAbove?_eq_some {path : String} (h : t.WellFormed) :
    t.storeAbove? l = some (k, s, path) ↔ t.own? k = some (.store s) ∧
      ∃ part parts, l = k ++ part :: parts ∧ path = String.intercalate "/" (part :: parts) := by
  have hfound : ∀ k s path, t.storeAbove? l = some (k, s, path) → t.own? k = some (.store s) ∧
      ∃ part parts, l = k ++ part :: parts ∧ path = String.intercalate "/" (part :: parts) := by
    intro k s path hsome
    obtain ⟨⟨k', e⟩, hmem, heq⟩ := List.exists_of_findSome?_eq_some hsome
    dsimp only at heq
    split at heq
    · rename_i hbelow
      cases heq
      exact ⟨(mem_entries_iff h.distinct).1 hmem, _, _, below?_eq_some.1 hbelow, rfl⟩
    · cases heq
  refine ⟨hfound k s path, ?_⟩
  rintro ⟨hown, part, parts, rfl, rfl⟩
  cases hstore : t.storeAbove? (k ++ part :: parts) with
  | none => exact absurd rfl (storeAbove?_eq_none.1 hstore k s part parts (mem_entries_of_own? hown))
  | some found =>
    obtain ⟨k', s', path'⟩ := found
    obtain ⟨hown', part', parts', heq, rfl⟩ := hfound k' s' path' hstore
    -- stores on the way to one location are on the way to each other
    have hkk : k = k' := by
      rcases List.prefix_or_prefix_of_prefix (List.prefix_append k (part :: parts))
        (heq ▸ List.prefix_append k' (part' :: parts')) with hle | hle
      · exact h.apart k k' s s' hown hown' hle
      · exact (h.apart k' k s' s hown' hown hle).symm
    subst hkk
    rw [hown] at hown'
    cases hown'
    rw [List.append_cancel_left heq]

/-! ### What is seen -/

@[simp] theorem get?_nil : t.get? [] = some .directory := rfl

theorem get?_of_own? (hl : l ≠ []) (h : t.own? l = some e) : t.get? l = some e := by
  have hempty : l.isEmpty = false := by simpa using hl
  rw [own?] at h
  simp [get?, hempty, h]

theorem get?_of_own?_eq_none (hl : l ≠ []) (h : t.own? l = none) :
    t.get? l = (t.storeAbove? l).bind fun found => (found.2.1.file? found.2.2).map .text := by
  have hempty : l.isEmpty = false := by simpa using hl
  rw [own?] at h
  simp [get?, hempty, h]

theorem own?_eq_store_iff (h : t.own? [] = none) :
    t.own? l = some (.store s) ↔ t.get? l = some (.store s) := by
  by_cases hl : l = []
  · simp [hl, h]
  · cases hown : t.own? l with
    | none =>
      rw [get?_of_own?_eq_none hl hown]
      simp [Option.bind_eq_some_iff]
    | some e => rw [get?_of_own? hl hown]

/-- A location that is no store and not inside one. -/
def OutsideStores (t : FileTree) (l : Location) : Prop :=
  ∀ k s, k <+: l → t.get? k ≠ some (.store s)

theorem OutsideStores.of_prefix (h : t.OutsideStores l) (hk : k <+: l) : t.OutsideStores k :=
  fun k' s hk' => h k' s (hk'.trans hk)

theorem outsideStores_append : t.OutsideStores (l ++ way) ↔
    t.OutsideStores l ∧ ∀ w s, w <+: way → t.get? (l ++ w) ≠ some (.store s) := by
  constructor
  · intro h
    refine ⟨h.of_prefix (List.prefix_append ..), fun w s hw => h _ s ?_⟩
    exact (List.prefix_append_right_inj l).2 hw
  · rintro ⟨hl, hway⟩ k s hk
    rcases List.prefix_or_prefix_of_prefix hk (List.prefix_append l way) with hle | ⟨w, rfl⟩
    · exact hl k s hle
    · exact hway w s ((List.prefix_append_right_inj l).1 hk)

theorem OutsideStores.get?_eq_directory (h : t.OutsideStores l) (hl : t.isDirectory l = true) :
    t.get? l = some .directory := by
  rw [isDirectory, Option.any_eq_true] at hl
  obtain ⟨e, he, hkind⟩ := hl
  cases e with
  | directory => exact he
  | text s => cases hkind
  | store s => exact absurd he (h l s (List.prefix_refl l))

/-- A store above a location that is below another one is below the other one, too. -/
theorem storeAbove?_append_eq_some {path : String} (ht : t.WellFormed) (hl : t.OutsideStores l) :
    t.storeAbove? (l ++ rest) = some (k, s, path) ↔ ∃ w part parts, w ≠ [] ∧
      rest = w ++ part :: parts ∧ k = l ++ w ∧ t.own? (l ++ w) = some (.store s) ∧
        path = String.intercalate "/" (part :: parts) := by
  rw [storeAbove?_eq_some ht]
  constructor
  · rintro ⟨hown, part, parts, heq, rfl⟩
    have hnot : ¬k <+: l := fun hle => hl k s hle ((own?_eq_store_iff ht.root).1 hown)
    rcases List.append_eq_append_iff.1 heq with ⟨w, rfl, hrest⟩ | ⟨w, rfl, -⟩
    · refine ⟨w, part, parts, ?_, hrest, rfl, hown, rfl⟩
      rintro rfl
      simp at hnot
    · exact absurd (List.prefix_append k w) hnot
  · rintro ⟨w, part, parts, -, rfl, rfl, hown, rfl⟩
    exact ⟨hown, part, parts, by simp, rfl⟩

/-- Below locations outside of stores the same is seen if the stores there and the entry at the end
are the same. -/
theorem get?_append_congr (ht : t.WellFormed) (hu : u.WellFormed) (hl : t.OutsideStores l)
    (hk : u.OutsideStores k) (hrest : rest ≠ []) (hend : t.own? (l ++ rest) = u.own? (k ++ rest))
    (hstores : ∀ w s, w ≠ [] → w <+: rest →
      (t.own? (l ++ w) = some (.store s) ↔ u.own? (k ++ w) = some (.store s))) :
    t.get? (l ++ rest) = u.get? (k ++ rest) := by
  have hne : ∀ l : Location, l ++ rest ≠ [] := by simp [hrest]
  cases hown : t.own? (l ++ rest) with
  | some e => rw [get?_of_own? (hne l) hown, get?_of_own? (hne k) (hend ▸ hown)]
  | none =>
    rw [get?_of_own?_eq_none (hne l) hown, get?_of_own?_eq_none (hne k) (hend ▸ hown)]
    ext x
    simp only [Option.bind_eq_some_iff, Prod.exists, storeAbove?_append_eq_some ht hl,
      storeAbove?_append_eq_some hu hk]
    constructor
    · rintro ⟨_, s, path, ⟨w, part, parts, hw, hr, rfl, hs, hp⟩, hx⟩
      rw [hstores w s hw ⟨_, hr.symm⟩] at hs
      exact ⟨_, s, path, ⟨w, part, parts, hw, hr, rfl, hs, hp⟩, hx⟩
    · rintro ⟨_, s, path, ⟨w, part, parts, hw, hr, rfl, hs, hp⟩, hx⟩
      rw [← hstores w s hw ⟨_, hr.symm⟩] at hs
      exact ⟨_, s, path, ⟨w, part, parts, hw, hr, rfl, hs, hp⟩, hx⟩

theorem outsideStores_nil : t.OutsideStores [] := by
  intro k s hk
  simp [List.prefix_nil.1 hk]

/-- What is seen at a location is decided by the entry there and the stores on the way to it. -/
theorem get?_congr (ht : t.WellFormed) (hu : u.WellFormed) (hend : t.own? l = u.own? l)
    (hstores : ∀ k s, k <+: l → (t.own? k = some (.store s) ↔ u.own? k = some (.store s))) :
    t.get? l = u.get? l := by
  by_cases hl : l = []
  · simp [hl]
  · exact get?_append_congr ht hu outsideStores_nil outsideStores_nil hl hend
      fun w s _ hw => hstores w s hw

theorem OutsideStores.storeAbove?_eq_none (ht : t.WellFormed) (h : t.OutsideStores l.dropLast) :
    t.storeAbove? l = none := by
  refine FileTree.storeAbove?_eq_none.2 fun k s part parts hmem heq => ?_
  refine h k s (prefix_dropLast ⟨_, heq.symm⟩ (by simp [heq])) ?_
  exact (own?_eq_store_iff ht.root).1 ((mem_entries_iff ht.distinct).1 hmem)

/-- Outside of stores only entries are seen. -/
theorem own?_eq_get? (ht : t.WellFormed) (hl : l ≠ []) (h : t.OutsideStores l.dropLast) :
    t.own? l = t.get? l := by
  cases hown : t.own? l with
  | some e => rw [get?_of_own? hl hown]
  | none =>
    rw [get?_of_own?_eq_none hl hown, h.storeAbove?_eq_none ht]
    rfl

theorem own?_eq_none_of_get? (h : t.get? l = none) : t.own? l = none := by
  cases hown : t.own? l with
  | none => rfl
  | some e =>
    by_cases hl : l = []
    · simp [hl] at h
    · rw [get?_of_own? hl hown] at h
      cases h

/-- Nothing is kept below a location, and no store writes files there. -/
def Vacant (t : FileTree) (l : Location) : Prop := ∀ w, w ≠ [] → t.get? (l ++ w) = none

theorem OutsideStores.append (h : t.OutsideStores l) (hvacant : t.Vacant l) (w : Location) :
    t.OutsideStores (l ++ w) := by
  refine outsideStores_append.2 ⟨h, fun w' s _ hs => ?_⟩
  by_cases hw' : w' = []
  · exact h _ s (by simp [hw']) hs
  · rw [hvacant w' hw'] at hs
    cases hs

/-! ### Putting and taking away -/

@[simp] theorem put_mount : (t.put l e).mount = t.mount := rfl

@[simp] theorem erase_mount : (t.erase l).mount = t.mount := rfl

theorem nodup_put (h : (t.entries.map Prod.fst).Nodup) :
    ((t.put l e).entries.map Prod.fst).Nodup := by
  have hfilter : (t.entries.filter fun entry => decide (entry.1 ≠ l)).map Prod.fst =
      (t.entries.map Prod.fst).filter fun k => decide (k ≠ l) := by
    rw [List.filter_map]
    rfl
  simp only [put, List.map_cons, hfilter, List.nodup_cons]
  exact ⟨by simp, h.filter _⟩

/-- An entry can be put where nothing is seen; a store also needs that nothing is below it and that
it is in no other store. -/
theorem WellFormed.put (ht : t.WellFormed) (hl : t.get? l = none)
    (hs : ∀ s, e = .store s → t.OutsideStores l ∧ ∀ w, w ≠ [] → t.own? (l ++ w) = none) :
    (t.put l e).WellFormed where
  mount_absolute := ht.mount_absolute
  mount_open := ht.mount_open
  distinct := nodup_put ht.distinct
  root := by
    rw [own?_put, if_neg, ht.root]
    rintro rfl
    simp at hl
  apart := by
    intro k k' s s' hk hk' hle
    rw [own?_put] at hk hk'
    split at hk <;> split at hk'
    · rename_i h h'
      rw [h, h']
    · rename_i h h'
      obtain ⟨w, rfl⟩ := hle
      cases hk
      subst h
      have := (hs s rfl).2 w (by rintro rfl; simp at h')
      rw [this] at hk'
      cases hk'
    · rename_i h h'
      cases hk'
      subst h'
      exact absurd ((own?_eq_store_iff ht.root).1 hk) ((hs s' rfl).1 k s hle)
    · exact ht.apart k k' s s' hk hk' hle
  shown := by
    intro k s part parts hk hfile
    rw [own?_put] at hk ⊢
    split at hk
    · rename_i h
      cases hk
      subst h
      rw [if_neg (by simp)]
      exact (hs s rfl).2 _ (by simp)
    · have hnone := ht.shown k s part parts hk hfile
      by_cases hkl : k ++ part :: parts = l
      · -- the file that the store writes would be seen
        subst hkl
        rw [get?_of_own?_eq_none (by simp) hnone,
          (storeAbove?_eq_some ht).2 ⟨hk, part, parts, rfl, rfl⟩] at hl
        simp only [Option.bind_some, Option.map_eq_none_iff] at hl
        rw [hl] at hfile
        cases hfile
      · rw [if_neg hkl, hnone]

theorem WellFormed.put_outside (ht : t.WellFormed) (hl : l ≠ []) (hout : t.OutsideStores l)
    (he : ∀ s, e ≠ .store s) : (t.put l e).WellFormed where
  mount_absolute := ht.mount_absolute
  mount_open := ht.mount_open
  distinct := nodup_put ht.distinct
  root := by
    rw [own?_put, if_neg hl.symm, ht.root]
  apart := by
    intro k k' s s' hk hk' hle
    rw [own?_put] at hk hk'
    split at hk
    · exact absurd (Option.some.inj hk) (he s)
    · split at hk'
      · exact absurd (Option.some.inj hk') (he s')
      · exact ht.apart k k' s s' hk hk' hle
  shown := by
    intro k s part parts hk hfile
    rw [own?_put] at hk
    split at hk
    · exact absurd (Option.some.inj hk) (he s)
    · rw [own?_put, if_neg, ht.shown k s part parts hk hfile]
      rintro rfl
      exact hout k s (List.prefix_append ..) ((own?_eq_store_iff ht.root).1 hk)

/-- A directory or a text changes what is seen at its own location only. -/
theorem get?_put (ht : t.WellFormed) (hl : t.get? l = none) (he : ∀ s, e ≠ .store s) :
    (t.put l e).get? k = if k = l then some e else t.get? k := by
  have hlne : l ≠ [] := by
    rintro rfl
    simp at hl
  split
  · rename_i h
    exact get?_of_own? (h ▸ hlne) (by rw [own?_put, if_pos h])
  · rename_i h
    refine get?_congr (ht.put hl fun s hs => absurd hs (he s)) ht (by rw [own?_put, if_neg h]) ?_
    intro k' s _
    rw [own?_put]
    split
    · rename_i hk'
      subst hk'
      simp [own?_eq_none_of_get? hl, he s]
    · rfl

theorem WellFormed.erase (ht : t.WellFormed) (l : Location) : (t.erase l).WellFormed where
  mount_absolute := ht.mount_absolute
  mount_open := ht.mount_open
  distinct := ht.distinct.sublist (List.filter_sublist.map _)
  root := by
    rw [own?_erase, ht.root, ite_self]
  apart := by
    intro k k' s s' hk hk' hle
    rw [own?_erase] at hk hk'
    split at hk <;> split at hk' <;> first | cases hk | cases hk' | skip
    exact ht.apart k k' s s' hk hk' hle
  shown := by
    intro k s part parts hk hfile
    rw [own?_erase] at hk ⊢
    split at hk
    · cases hk
    · rw [ht.shown k s part parts hk hfile, ite_self]

/-- What is taken away outside of stores is not seen any more; all else is. -/
theorem get?_erase (ht : t.WellFormed) (hne : l ≠ []) (hl : t.OutsideStores l.dropLast) :
    (t.erase l).get? k = if l <+: k then none else t.get? k := by
  have hu := ht.erase l
  split
  · rename_i hlk
    have hk : k ≠ [] := by
      rintro rfl
      exact hne (List.prefix_nil.1 hlk)
    have hnone : (t.erase l).storeAbove? k = none := by
      refine storeAbove?_eq_none.2 fun k' s part parts hmem heq => ?_
      have hown := (mem_entries_iff hu.distinct).1 hmem
      rw [own?_erase] at hown
      split at hown
      · cases hown
      · rename_i hnot
        rcases List.prefix_or_prefix_of_prefix (heq ▸ List.prefix_append k' (part :: parts)) hlk
          with hle | hle
        · refine hl k' s (prefix_dropLast hle ?_) ((own?_eq_store_iff ht.root).1 hown)
          rintro rfl
          exact hnot (List.prefix_refl k')
        · exact hnot hle
    rw [get?_of_own?_eq_none hk (by rw [own?_erase, if_pos hlk]), hnone]
    rfl
  · rename_i hlk
    have hnot : ∀ k', k' <+: k → ¬l <+: k' := fun k' hk' h => hlk (h.trans hk')
    refine get?_congr hu ht (by rw [own?_erase, if_neg hlk]) fun k' s hk' => ?_
    rw [own?_erase, if_neg (hnot k' hk')]

end ReleaseHistory.FileTree
