import ReleaseHistory.Proofs.FileTree.Route

/-!
# Making, writing and copying

What the operations on files do to a well-formed tree: a directory and what leads to it can be made,
a file can be written where nothing is, a directory can be taken away, and entries can be copied one
after the other as long as each of them fits in its place.
-/

namespace ReleaseHistory

open Operation

namespace FileTree

variable {t u : FileTree} {base l k into source : Location} {path : String}

/-! ### Paths to what is there -/

theorem origin?_congr (h : u.mount = t.mount) : u.origin? base path = t.origin? base path := by
  unfold origin?
  rw [h]

theorem find?_eq_some {e : Entry} :
    t.find? base path = some (l, e) ↔ t.locate? base path = some l ∧ t.get? l = some e := by
  simp only [find?, Option.bind_eq_some_iff, Option.map_eq_some_iff, Prod.mk.injEq]
  constructor
  · rintro ⟨l', hl, e', he, rfl, rfl⟩
    exact ⟨hl, he⟩
  · rintro ⟨hl, he⟩
    exact ⟨l, hl, e, he, rfl, rfl⟩

/-- The locations that a path leads to, one after the other. -/
def way (t : FileTree) (base : Location) (path : String) : List Location :=
  (t.origin? base path).elim [] fun found => passed found.1 found.2

theorem grown_createDirectory {r : Except Fault Location} (ht : t.WellFormed)
    (h : on (createDirectory base path) t = (r, u)) : Grown t u (t.way base path) := by
  simp only [createDirectory, on_bind, on_get] at h
  cases ho : t.origin? base path with
  | none =>
    rw [ho] at h
    cases h
    exact Grown.refl ht _
  | some found =>
    obtain ⟨l, parts⟩ := found
    rw [ho] at h
    dsimp only at h
    split at h
    · cases h
      exact Grown.refl ht _
    · simpa [way, ho] using grown_createDirectories ht h

/-- A path with no null character in it names a directory that can be made part by part. -/
theorem on_createDirectory {parts : List String} (ho : t.origin? base path = some (l, parts))
    (hnull : '\x00' ∉ path.toList) :
    on (createDirectory base path) t = on (createDirectories l parts) t := by
  simp only [createDirectory, on_bind, on_get, ho]
  rw [if_neg (by simpa using hnull)]

theorem createDirectory_eq_ok (h : on (createDirectory base path) t = (.ok k, u)) :
    '\x00' ∉ path.toList ∧ ∃ l parts, t.origin? base path = some (l, parts) ∧
      on (createDirectories l parts) t = (.ok k, u) := by
  simp only [createDirectory, on_bind, on_get] at h
  cases ho : t.origin? base path with
  | none =>
    rw [ho] at h
    cases h
  | some found =>
    obtain ⟨l, parts⟩ := found
    rw [ho] at h
    dsimp only at h
    split at h
    · cases h
    · rename_i hnull
      exact ⟨by simpa using hnull, l, parts, rfl, h⟩

theorem locate?_of_createDirectory (ht : t.WellFormed)
    (h : on (createDirectory base path) t = (.ok k, u)) : u.locate? base path = some k := by
  have hmount := (grown_createDirectory ht h).mount
  obtain ⟨-, l, parts, ho, hon⟩ := createDirectory_eq_ok h
  rw [locate?, origin?_congr hmount, ho]
  exact (foldlM_of_createDirectories ht hon).1

theorem isDirectory_of_createDirectory (ht : t.WellFormed) (hbase : t.isDirectory base = true)
    (h : on (createDirectory base path) t = (.ok k, u)) : u.isDirectory k = true := by
  have hgrown := grown_createDirectory ht h
  obtain ⟨-, l, parts, ho, hon⟩ := createDirectory_eq_ok h
  refine (foldlM_of_createDirectories ht hon).2 (hgrown.isDirectory ?_)
  rcases origin?_cases ho with ⟨-, -, -, rfl, -⟩ | ⟨-, rfl, -⟩
  · rfl
  · exact hbase

/-! ### Reading, writing and taking away -/

theorem on_readText? : on (readText? base path) t = (match t.find? base path with
    | none => .ok none
    | some (_, .text s) => .ok (some s)
    | some _ => .error .file, t) := by
  simp only [readText?, on_bind, on_get]
  rcases t.find? base path with _ | ⟨l, _ | s | s⟩ <;> rfl

theorem on_remove {e : Entry} (h : t.find? base path = some (l, e)) (hl : l ≠ []) :
    on (remove base path) t = (.ok (), t.erase l) := by
  have hempty : l.isEmpty = false := by simpa using hl
  simp only [remove, on_bind, on_get, h, hempty]
  rfl

/-- A file that is not there and not in a store is written as it is. -/
theorem on_writeHere {text : String} (ht : t.WellFormed) (hl : t.locate? base path = some l)
    (hnone : t.get? l = none) (hout : t.OutsideStores l) :
    on (writeHere base path text) t = (.ok (), t.put l (.text text)) := by
  have hdir : t.isDirectory l = false := by simp [isDirectory, hnone]
  have habove := (hout.of_prefix (List.dropLast_prefix l)).storeAbove?_eq_none ht
  simp only [writeHere, on_bind, on_get, hl, hdir, putText, habove]
  rfl

/-! ### Copying -/

/-- An entry that is copied before another one does not stand in its way. -/
def Precedes (a b : Location × Entry) : Prop :=
  a.1 ≠ b.1 ∧ a.1.length ≤ b.1.length ∧ ∀ s part parts, a.2 = .store s →
    b.1 = a.1 ++ part :: parts → s.file? (String.intercalate "/" (part :: parts)) = none ∧
      ∀ s', b.2 ≠ .store s'

/-- A store can be put below a location. -/
structure Room (t : FileTree) (into way : Location) : Prop where
  unseen : t.get? (into ++ way) = none
  below : ∀ w, w ≠ [] → t.own? (into ++ way ++ w) = none
  outside : t.OutsideStores (into ++ way)

/-- Where an entry is copied to, no store has a file that would be written over, and a store finds
room. -/
structure Admits (t : FileTree) (into : Location) (a : Location × Entry) : Prop where
  outside : ∀ e, t.get? (into ++ a.1) = some e → t.OutsideStores (into ++ a.1)
  room : ∀ s, a.2 = .store s → t.Room into a.1

/-- What is seen where an entry is copied to is of the same kind. -/
def Fits (t : FileTree) (into : Location) (a : Location × Entry) : Prop :=
  ∀ e, t.get? (into ++ a.1) = some e → e.isDirectory = a.2.isDirectory

/-- A tree after entries have been copied below a location. -/
structure Copied (t u : FileTree) (into : Location) (es : List (Location × Entry)) : Prop where
  wellFormed : u.WellFormed
  mount : u.mount = t.mount
  here : ∀ a ∈ es, u.own? (into ++ a.1) = some a.2
  elsewhere : ∀ k, (∀ a ∈ es, k ≠ into ++ a.1) → u.own? k = t.own? k

theorem Copied.trans {v : FileTree} {a : Location × Entry} {es : List (Location × Entry)}
    (hfirst : Copied t u into [a]) (hrest : Copied u v into es) (ha : ∀ b ∈ es, a.1 ≠ b.1) :
    Copied t v into (a :: es) where
  wellFormed := hrest.wellFormed
  mount := hrest.mount.trans hfirst.mount
  here := by
    intro b hb
    rcases List.mem_cons.1 hb with rfl | hb
    · rw [hrest.elsewhere, hfirst.here b (List.mem_singleton_self b)]
      exact fun c hc heq => ha c hc (List.append_cancel_left heq)
    · exact hrest.here b hb
  elsewhere := by
    intro k hk
    obtain ⟨hka, hkes⟩ := List.forall_mem_cons.1 hk
    rw [hrest.elsewhere k hkes, hfirst.elsewhere]
    simpa using hka

theorem copied_put {a : Location × Entry} (hu : (t.put (into ++ a.1) a.2).WellFormed) :
    Copied t (t.put (into ++ a.1) a.2) into [a] where
  wellFormed := hu
  mount := rfl
  here := by simp [own?_put]
  elsewhere := by
    intro k hk
    rw [own?_put, if_neg (hk a (List.mem_singleton_self a))]

/-- The first entry is copied if what is in its place is of the same kind. -/
theorem copyEntries_cons {a : Location × Entry} (ht : t.WellFormed) (hne : source ≠ into)
    (hway : a.1 ≠ []) (ha : t.Admits into a) :
    (¬t.Fits into a ∧ ∀ es, on (copyEntries source into (a :: es)) t = (.error .file, t)) ∨
      t.Fits into a ∧ ∃ u, Copied t u into [a] ∧
        ∀ es, on (copyEntries source into (a :: es)) t = on (copyEntries source into es) u := by
  have hl : into ++ a.1 ≠ [] := by simp [hway]
  cases hget : t.get? (into ++ a.1) with
  | none =>
    refine .inr ⟨by simp [Fits, hget], _, copied_put (ht.put hget fun s hs => ?_), fun es => ?_⟩
    · exact ⟨(ha.room s hs).outside, (ha.room s hs).below⟩
    · simp only [copyEntries, on_bind, on_get, hget]
      cases a.2 <;> rfl
  | some e =>
    have hout := ha.outside e hget
    have habove := (hout.of_prefix (List.dropLast_prefix _)).storeAbove?_eq_none ht
    have hfits : t.Fits into a ↔ e.isDirectory = a.2.isDirectory := by
      simp [Fits, hget]
    rw [hfits]
    cases hkind : a.2 with
    | store s =>
      rw [(ha.room s hkind).unseen] at hget
      cases hget
    | text s =>
      cases e with
      | text s' =>
        refine .inr ⟨rfl, _, copied_put (ht.put_outside hl hout (by simp [hkind])), fun es => ?_⟩
        simp only [copyEntries, on_bind, on_get, hget, hkind, putText, habove, if_neg hne]
        rfl
      | directory =>
        refine .inl ⟨by simp [Entry.isDirectory], fun es => ?_⟩
        simp only [copyEntries, on_bind, on_get, hget, hkind]
        rfl
      | store s' => exact absurd hget (hout _ s' (List.prefix_refl _))
    | directory =>
      cases e with
      | text s' =>
        refine .inl ⟨by simp [Entry.isDirectory], fun es => ?_⟩
        simp only [copyEntries, on_bind, on_get, hget, hkind]
        rfl
      | directory =>
        have hown := (own?_eq_get? ht hl (hout.of_prefix (List.dropLast_prefix _))).trans hget
        refine .inr ⟨rfl, t, ⟨ht, rfl, by simp [hown, hkind], fun _ _ => rfl⟩, fun es => ?_⟩
        simp only [copyEntries, on_bind, on_get, hget, hkind]
      | store s' => exact absurd hget (hout _ s' (List.prefix_refl _))

theorem Room.not_below {way way' : Location} {e : Entry} (h : t.Room into way) (ht : t.WellFormed)
    (hget : t.get? (into ++ way') = some e) (hout : t.OutsideStores (into ++ way')) :
    ¬way <+: way' := by
  rintro ⟨w, rfl⟩
  by_cases hw : w = []
  · rw [hw, List.append_nil, h.unseen] at hget
    cases hget
  · have hne : into ++ (way ++ w) ≠ [] := by simp [hw]
    rw [← own?_eq_get? ht hne (hout.of_prefix (List.dropLast_prefix _)), ← List.append_assoc,
      h.below w hw] at hget
    cases hget

section Preceding

variable {a b : Location × Entry} (ht : t.WellFormed) (h : Copied t u into [a])
  (ha : t.Admits into a) (hb : t.Admits into b) (hab : Precedes a b)

include h in
theorem Copied.own?_eq (hk : k ≠ into ++ a.1) : u.own? k = t.own? k :=
  h.elsewhere k fun c hc => by rwa [List.mem_singleton.1 hc]

include ht h ha hb hab in
/-- What is copied first does not change what is seen where the other entry goes. -/
theorem Copied.get?_eq : u.get? (into ++ b.1) = t.get? (into ++ b.1) := by
  have hne : into ++ b.1 ≠ into ++ a.1 := fun heq => hab.1 (List.append_cancel_left heq).symm
  by_cases hstores : ∀ s, a.2 = .store s → ¬a.1 <+: b.1
  · refine get?_congr h.wellFormed ht (h.own?_eq hne) fun k s hk => ?_
    by_cases hka : k = into ++ a.1
    · subst hka
      rw [List.prefix_append_right_inj] at hk
      rw [h.here a (List.mem_singleton_self a), own?_eq_store_iff ht.root]
      constructor
      · intro hs
        exact absurd hk (hstores s (Option.some.inj hs))
      · intro hs
        exact absurd hs (ha.outside _ hs _ s (List.prefix_refl _))
    · rw [h.own?_eq hka]
  · push Not at hstores
    obtain ⟨s, hs, hpre⟩ := hstores
    have hroom := ha.room s hs
    have hunseen : t.get? (into ++ b.1) = none := by
      cases hget : t.get? (into ++ b.1) with
      | none => rfl
      | some e => exact absurd hpre (hroom.not_below ht hget (hb.outside e hget))
    obtain ⟨w, hw⟩ := hpre
    cases w with
    | nil => exact absurd (by simpa using hw) hab.1
    | cons part parts =>
      -- the store does not write a file where another entry goes
      have hfile := (hab.2.2 s part parts hs hw.symm).1
      have habove : u.storeAbove? (into ++ b.1) =
          some (into ++ a.1, s, String.intercalate "/" (part :: parts)) := by
        refine (storeAbove?_eq_some h.wellFormed).2 ⟨?_, part, parts, ?_, rfl⟩
        · rw [h.here a (List.mem_singleton_self a), hs]
        · rw [← hw, List.append_assoc]
      have hown : u.own? (into ++ b.1) = none := by
        rw [h.own?_eq hne, own?_eq_none_of_get? hunseen]
      have hbne : into ++ b.1 ≠ [] := by simp [← hw]
      rw [hunseen, get?_of_own?_eq_none hbne hown, habove, Option.bind_some, hfile,
        Option.map_none]

include ht h in
theorem Copied.outsideStores (hout : t.OutsideStores (into ++ b.1))
    (hclear : ∀ s, a.2 = .store s → ¬a.1 <+: b.1) : u.OutsideStores (into ++ b.1) := by
  intro k s hk hs
  rw [← own?_eq_store_iff h.wellFormed.root] at hs
  by_cases hka : k = into ++ a.1
  · subst hka
    rw [h.here a (List.mem_singleton_self a)] at hs
    exact hclear s (Option.some.inj hs) ((List.prefix_append_right_inj into).1 hk)
  · rw [h.own?_eq hka, own?_eq_store_iff ht.root] at hs
    exact hout k s hk hs

include ht h ha hb hab in
/-- What is copied first leaves the place of the other entry as free as it was. -/
theorem Copied.admits : u.Admits into b where
  outside := by
    intro e hget
    rw [h.get?_eq ht ha hb hab] at hget
    have hout := hb.outside e hget
    exact h.outsideStores ht hout fun s hs => (ha.room s hs).not_below ht hget hout
  room := by
    intro s hs
    have hroom := hb.room s hs
    refine ⟨?_, fun w hw => ?_, ?_⟩
    · rw [h.get?_eq ht ha hb hab, hroom.unseen]
    · have hlong : into ++ b.1 ++ w ≠ into ++ a.1 := by
        intro heq
        have hlength := congrArg List.length heq
        have hpos := List.length_pos_of_ne_nil hw
        have hle := hab.2.1
        simp only [List.length_append] at hlength
        omega
      rw [h.own?_eq hlong, hroom.below w hw]
    · refine h.outsideStores ht hroom.outside fun s' hs' hpre => ?_
      -- a store does not precede another one that is in it
      obtain ⟨w, hw⟩ := hpre
      cases w with
      | nil => exact hab.1 (by simpa using hw)
      | cons part parts => exact (hab.2.2 s' part parts hs' hw.symm).2 s hs

end Preceding

theorem on_copyEntries {es : List (Location × Entry)} (ht : t.WellFormed) (hne : source ≠ into)
    (hes : es.Pairwise Precedes) (hways : ∀ a ∈ es, a.1 ≠ []) (hadmits : ∀ a ∈ es, t.Admits into a) :
    ∃ r u, on (copyEntries source into es) t = (r, u) ∧
      (r = .ok () ↔ ∀ a ∈ es, t.Fits into a) ∧ (r = .ok () → Copied t u into es) := by
  induction es generalizing t with
  | nil => exact ⟨.ok (), t, rfl, by simp, fun _ => ⟨ht, rfl, by simp, fun _ _ => rfl⟩⟩
  | cons a es ih =>
    obtain ⟨hprecedes, hes⟩ := List.pairwise_cons.1 hes
    obtain ⟨hway, hways⟩ := List.forall_mem_cons.1 hways
    obtain ⟨ha, hadmits⟩ := List.forall_mem_cons.1 hadmits
    rcases copyEntries_cons ht hne hway ha with ⟨hnot, hon⟩ | ⟨hfits, t', hfirst, hon⟩
    · refine ⟨.error .file, t, hon es, ?_, nofun⟩
      exact iff_of_false nofun fun h => hnot (h a (List.mem_cons_self ..))
    · obtain ⟨r, u, hrest, hiff, hcopied⟩ := ih hfirst.wellFormed hes hways fun b hb =>
        hfirst.admits ht ha (hadmits b hb) (hprecedes b hb)
      refine ⟨r, u, (hon es).trans hrest, ?_, fun hr => ?_⟩
      · rw [hiff, List.forall_mem_cons, and_iff_right hfits]
        refine forall₂_congr fun b hb => ?_
        rw [Fits, hfirst.get?_eq ht ha (hadmits b hb) (hprecedes b hb), Fits]
      · exact hfirst.trans (hcopied hr) fun b hb => (hprecedes b hb).1

/-- An entry with the way to it from a location, if it is below that. -/
def entryBelow? (l : Location) (a : Location × Entry) : Option (Location × Entry) :=
  match below? l a.1 with
  | some [] => none
  | some way => some (way, a.2)
  | none => none

theorem below_eq (t : FileTree) (l : Location) :
    t.below l = t.entries.filterMap (entryBelow? l) := rfl

theorem entryBelow?_eq_some {a b : Location × Entry} :
    entryBelow? l a = some b ↔ b.1 ≠ [] ∧ a = (l ++ b.1, b.2) := by
  obtain ⟨k, e⟩ := a
  obtain ⟨w, e'⟩ := b
  constructor
  · intro h
    simp only [entryBelow?] at h
    split at h
    · cases h
    · rename_i hne hbelow
      cases h
      exact ⟨hne, by rw [below?_eq_some.1 hbelow]⟩
    · cases h
  · rintro ⟨hw, heq⟩
    cases heq
    simp only [entryBelow?, below?_eq_some.2 rfl]

theorem mem_below {a : Location × Entry} (ht : t.WellFormed) :
    a ∈ t.below l ↔ a.1 ≠ [] ∧ t.own? (l ++ a.1) = some a.2 := by
  simp only [below_eq, List.mem_filterMap, entryBelow?_eq_some, ← mem_entries_iff ht.distinct]
  constructor
  · rintro ⟨_, hmem, hne, rfl⟩
    exact ⟨hne, hmem⟩
  · rintro ⟨hne, hmem⟩
    exact ⟨_, hmem, hne, rfl⟩

theorem pairwise_below_ne (ht : t.WellFormed) (l : Location) :
    (t.below l).Pairwise fun a b => a.1 ≠ b.1 := by
  have hentries : t.entries.Pairwise fun a b => a.1 ≠ b.1 := List.pairwise_map.1 ht.distinct
  rw [below_eq]
  refine List.pairwise_filterMap.2 (hentries.imp ?_)
  intro a a' hne b hb b' hb' heq
  obtain ⟨-, rfl⟩ := entryBelow?_eq_some.1 hb
  obtain ⟨-, rfl⟩ := entryBelow?_eq_some.1 hb'
  exact hne (congrArg (l ++ ·) heq)

/-- The entries below a location precede each other in the order in which they are copied. -/
theorem pairwise_precedes (ht : t.WellFormed) (l : Location) :
    ((t.below l).mergeSort fun a b => a.1.length ≤ b.1.length).Pairwise Precedes := by
  have hlength : ((t.below l).mergeSort fun a b => a.1.length ≤ b.1.length).Pairwise
      fun a b => decide (a.1.length ≤ b.1.length) = true :=
    List.pairwise_mergeSort (by simp; omega) (by simp; omega) (t.below l)
  have hne : ((t.below l).mergeSort fun a b => a.1.length ≤ b.1.length).Pairwise
      fun a b => a.1 ≠ b.1 :=
    (pairwise_below_ne ht l).perm (List.mergeSort_perm _ _).symm Ne.symm
  refine (hne.and hlength).imp_of_mem ?_
  rintro a b ha hb ⟨hab, hle⟩
  have ha := (mem_below ht).1 (List.mem_mergeSort.1 ha)
  have hb := (mem_below ht).1 (List.mem_mergeSort.1 hb)
  refine ⟨hab, by simpa using hle, fun s part parts hs hw => ⟨?_, fun s' hs' => ?_⟩⟩
  · cases hfile : s.file? (String.intercalate "/" (part :: parts)) with
    | none => rfl
    | some text =>
      have := ht.shown (l ++ a.1) s part parts (hs ▸ ha.2) (by simp [hfile])
      rw [List.append_assoc, ← hw, hb.2] at this
      cases this
  · have hpre : l ++ a.1 <+: l ++ b.1 := by
      rw [hw, ← List.append_assoc]
      exact List.prefix_append ..
    have := ht.apart _ _ s s' (hs ▸ ha.2) (hs' ▸ hb.2) hpre
    exact hab (List.append_cancel_left this)

/-- Where a path leads, whatever is there. -/
def lead? (t : FileTree) (base : Location) (path : String) : Option Location :=
  (t.origin? base path).map fun found => found.2.foldl go found.1

theorem way_congr (h : u.mount = t.mount) : u.way base path = t.way base path := by
  rw [way, way, origin?_congr h]

theorem lead?_congr (h : u.mount = t.mount) : u.lead? base path = t.lead? base path := by
  rw [lead?, lead?, origin?_congr h]

theorem lead?_of_locate? (h : t.locate? base path = some k) : t.lead? base path = some k := by
  obtain ⟨⟨l, parts⟩, ho, hfold⟩ := Option.bind_eq_some_iff.1 h
  rw [lead?, ho, Option.map_some, ← eq_foldl_go hfold]

theorem lead?_of_createDirectory (ht : t.WellFormed)
    (h : on (createDirectory base path) t = (.ok k, u)) : t.lead? base path = some k := by
  rw [← lead?_congr (grown_createDirectory ht h).mount]
  exact lead?_of_locate? (locate?_of_createDirectory ht h)

theorem locate?_mono (h : t.locate? base path = some k) (hmount : u.mount = t.mount)
    (hstay : ∀ m, t.isDirectory m = true → u.isDirectory m = true) :
    u.locate? base path = some k := by
  rw [locate?, origin?_congr hmount]
  rw [locate?] at h
  obtain ⟨⟨l, parts⟩, ho, hfold⟩ := Option.bind_eq_some_iff.1 h
  exact Option.bind_eq_some_iff.2 ⟨(l, parts), ho, foldlM_step?_mono hfold fun m _ => hstay m⟩

end FileTree

end ReleaseHistory
