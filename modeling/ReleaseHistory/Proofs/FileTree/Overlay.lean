import ReleaseHistory.Proofs.FileTree.Copy

/-!
# One directory over another

When a directory is copied into one that is there already, the entries of the first come to lie over
those of the second: what the first has is seen there, and what only the second has is left. That
does not hang on the order of the copying, which fails exactly if a file and a directory meet. A path
to a directory makes all directories that are on it, even those that it leaves again by going up, so
that nothing else changes but for these.
-/

namespace ReleaseHistory

open Operation

namespace FileTree

variable {t u v : FileTree} {base l k into source w : Location} {e : Entry} {path target : String}

/-! ### Directories that can be laid over each other -/

/-- Stores do not keep two directories from being laid over each other: neither is in a store, and
where one of them has a store, the other one has nothing. -/
structure Unmixed (t : FileTree) (source into : Location) : Prop where
  source_outside : t.OutsideStores source
  into_outside : t.OutsideStores into
  source_store : ∀ w s, t.get? (source ++ w) = some (.store s) → ∀ w', t.get? (into ++ w ++ w') = none
  into_store : ∀ w s, t.get? (into ++ w) = some (.store s) → ∀ w', t.get? (source ++ w ++ w') = none

/-- What is below both of two directories is of the same kind. -/
def Compatible (t : FileTree) (source into : Location) : Prop :=
  ∀ w a b, w ≠ [] → t.get? (source ++ w) = some a → t.get? (into ++ w) = some b →
    a.isDirectory = b.isDirectory

/-- The entries below a location in the order in which they are copied. -/
def inOrder (t : FileTree) (l : Location) : List (Location × Entry) :=
  (t.below l).mergeSort fun a b => a.1.length ≤ b.1.length

theorem mem_inOrder {a : Location × Entry} (ht : t.WellFormed) :
    a ∈ t.inOrder l ↔ a.1 ≠ [] ∧ t.own? (l ++ a.1) = some a.2 :=
  List.mem_mergeSort.trans (mem_below ht)

/-- No store of the other directory is in the way of what one of them has. -/
theorem Unmixed.outside (h : t.Unmixed source into) (he : t.get? (source ++ w) = some e) :
    t.OutsideStores (into ++ w) := by
  refine outsideStores_append.2 ⟨h.into_outside, ?_⟩
  rintro w' s ⟨rest, rfl⟩ hs
  have hnone := h.into_store w' s hs rest
  rw [List.append_assoc, he] at hnone
  cases hnone

theorem Unmixed.admits {a : Location × Entry} (h : t.Unmixed source into) (ht : t.WellFormed)
    (ha : a ∈ t.inOrder source) : t.Admits into a := by
  obtain ⟨hway, hown⟩ := (mem_inOrder ht).1 ha
  have hget := get?_of_own? (by simp [hway]) hown
  refine ⟨fun _ _ => h.outside hget, fun s hs => ⟨?_, fun w hw => ?_, h.outside hget⟩⟩
  · rw [hs] at hget
    simpa using h.source_store a.1 s hget []
  · rw [hs] at hget
    exact own?_eq_none_of_get? (h.source_store a.1 s hget w)

/-- Only entries can stand in the way of others: where a store shows a file, the other directory has
nothing. -/
theorem Unmixed.fits_iff (h : t.Unmixed source into) (ht : t.WellFormed) :
    (∀ a ∈ t.inOrder source, t.Fits into a) ↔ t.Compatible source into := by
  constructor
  · intro hfits w a b hw ha hb
    have hne : source ++ w ≠ [] := by simp [hw]
    cases hown : t.own? (source ++ w) with
    | some a' =>
      rw [get?_of_own? hne hown] at ha
      cases ha
      exact (hfits (w, a) ((mem_inOrder ht).2 ⟨hw, hown⟩) b hb).symm
    | none =>
      rw [get?_of_own?_eq_none hne hown] at ha
      obtain ⟨⟨k, s, p⟩, habove, -⟩ := Option.bind_eq_some_iff.1 ha
      obtain ⟨w', part, parts, -, hrest, -, hstore, -⟩ :=
        (storeAbove?_append_eq_some ht h.source_outside).1 habove
      have hnone := h.source_store w' s ((own?_eq_store_iff ht.root).1 hstore) (part :: parts)
      rw [List.append_assoc, ← hrest, hb] at hnone
      cases hnone
  · intro hcompatible a ha e he
    obtain ⟨hway, hown⟩ := (mem_inOrder ht).1 ha
    exact (hcompatible a.1 a.2 e hway (get?_of_own? (by simp [hway]) hown) he).symm

theorem unmixed_of_storeless (h : ∀ k s, t.get? k ≠ some (.store s)) : t.Unmixed source into where
  source_outside := fun k s _ => h k s
  into_outside := fun k s _ => h k s
  source_store := fun _ s hs => absurd hs (h _ s)
  into_store := fun _ s hs => absurd hs (h _ s)

/-! ### What is seen of them -/

section Overlaid

variable (hu : u.WellFormed) (hmix : u.Unmixed source into)
  (h : Copied u v into (u.inOrder source))

include hu h in
theorem Copied.own?_append (hw : w ≠ []) :
    v.own? (into ++ w) = (u.own? (source ++ w)).or (u.own? (into ++ w)) := by
  cases hown : u.own? (source ++ w) with
  | some e => exact h.here (w, e) ((mem_inOrder hu).2 ⟨hw, hown⟩)
  | none =>
    refine h.elsewhere _ fun a ha heq => ?_
    obtain ⟨-, hmem⟩ := (mem_inOrder hu).1 ha
    rw [← List.append_cancel_left heq, hown] at hmem
    cases hmem

include hu h in
theorem Copied.own?_of_not_below (hk : ∀ w, w ≠ [] → k ≠ into ++ w) : v.own? k = u.own? k :=
  h.elsewhere k fun a ha => hk a.1 ((mem_inOrder hu).1 ha).1

include hu h in
theorem Copied.get?_of_not_below (hk : ∀ w, w ≠ [] → k ≠ into ++ w) : v.get? k = u.get? k := by
  have hown : ∀ k', k' <+: k → v.own? k' = u.own? k' := by
    rintro k' ⟨w', rfl⟩
    refine h.own?_of_not_below hu fun w hw heq => hk (w ++ w') (by simp [hw]) ?_
    rw [heq, List.append_assoc]
  exact get?_congr h.wellFormed hu (hown k (List.prefix_refl k)) fun k' s hk' => by rw [hown k' hk']

include hu h in
theorem Copied.outsideStores_into (hout : u.OutsideStores into) : v.OutsideStores into := by
  intro k s hk
  rw [h.get?_of_not_below hu]
  · exact hout k s hk
  · rintro w hw rfl
    have hlength := hk.length_le
    have hpos := List.length_pos_of_ne_nil hw
    rw [List.length_append] at hlength
    omega

include hu hmix h in
/-- Where a store of the source is on the way, the target has nothing, and the store is copied. -/
theorem Copied.get?_append_of_store {w₁ rest : Location} {s : Git.Store}
    (hs : u.get? (source ++ w₁) = some (.store s)) (hw : w₁ ++ rest ≠ []) :
    v.get? (into ++ (w₁ ++ rest)) = u.get? (source ++ (w₁ ++ rest)) ∧
      u.get? (into ++ (w₁ ++ rest)) = none := by
  have hnone : ∀ w', u.get? (into ++ (w₁ ++ w')) = none := by
    intro w'
    rw [← List.append_assoc]
    exact hmix.source_store w₁ s hs w'
  refine ⟨?_, hnone rest⟩
  refine get?_append_congr h.wellFormed hu (h.outsideStores_into hu hmix.into_outside)
    hmix.source_outside hw ?_ fun w' s' hw' hle => ?_
  · rw [h.own?_append hu hw, own?_eq_none_of_get? (hnone rest), Option.or_none]
  · rw [h.own?_append hu hw']
    cases u.own? (source ++ w') with
    | some e => rw [Option.some_or]
    | none =>
      rw [Option.none_or]
      refine iff_of_false (fun hs' => ?_) nofun
      rw [own?_eq_store_iff hu.root] at hs'
      -- a store of the target would be above that of the source, or where the target has nothing
      rcases List.prefix_or_prefix_of_prefix hle (List.prefix_append w₁ rest) with ⟨w'', hle'⟩ | hle'
      · have hempty := hmix.into_store w' s' hs' w''
        rw [List.append_assoc, hle', hs] at hempty
        cases hempty
      · obtain ⟨w'', rfl⟩ := hle'
        rw [hnone] at hs'
        cases hs'

include hu hmix h in
theorem Copied.get?_append_of_no_store (hw : w ≠ [])
    (hstore : ∀ w' s, w' <+: w → u.get? (source ++ w') ≠ some (.store s)) :
    v.get? (into ++ w) = (u.get? (source ++ w)).or (u.get? (into ++ w)) := by
  have hsource : u.own? (source ++ w) = u.get? (source ++ w) := by
    have hout : u.OutsideStores (source ++ w) :=
      outsideStores_append.2 ⟨hmix.source_outside, hstore⟩
    exact own?_eq_get? hu (by simp [hw]) (hout.of_prefix (List.dropLast_prefix _))
  rw [← hsource]
  cases hown : u.own? (source ++ w) with
  | some e =>
    rw [Option.some_or]
    exact get?_of_own? (by simp [hw]) (by rw [h.own?_append hu hw, hown, Option.some_or])
  | none =>
    rw [Option.none_or]
    refine get?_append_congr h.wellFormed hu (h.outsideStores_into hu hmix.into_outside)
      hmix.into_outside hw ?_ fun w' s hw' hle => ?_
    · rw [h.own?_append hu hw, hown, Option.none_or]
    · rw [h.own?_append hu hw']
      cases hown' : u.own? (source ++ w') with
      | none => rw [Option.none_or]
      | some e =>
        rw [Option.some_or]
        refine iff_of_false (fun he => ?_) fun hs => ?_
        · exact hstore w' s hle ((own?_eq_store_iff hu.root).1 (hown'.trans he))
        · rw [own?_eq_store_iff hu.root] at hs
          have hempty := hmix.into_store w' s hs []
          rw [List.append_nil, get?_of_own? (by simp [hw']) hown'] at hempty
          cases hempty

include hu hmix h in
/-- Below the target the source is seen, and what was there where the source has nothing. -/
theorem Copied.get?_append (hw : w ≠ []) :
    v.get? (into ++ w) = (u.get? (source ++ w)).or (u.get? (into ++ w)) := by
  by_cases hstore : ∃ w' s, w' <+: w ∧ u.get? (source ++ w') = some (.store s)
  · obtain ⟨w', s, ⟨rest, rfl⟩, hs⟩ := hstore
    obtain ⟨hcopied, hnone⟩ := h.get?_append_of_store hu hmix hs hw
    rw [hcopied, hnone, Option.or_none]
  · push Not at hstore
    exact h.get?_append_of_no_store hu hmix hw hstore

end Overlaid

/-! ### Copying a directory -/

/-- Once the directories of the target are made and the source is found, everything is copied
exactly if nothing is in the place of something of another kind. -/
theorem copyDirectory_cases (ht : t.WellFormed)
    (hmade : on (createDirectory base target) t = (.ok into, u))
    (hsource : u.find? base path = some (source, .directory)) (hapart : ¬source <+: into)
    (hmix : u.Unmixed source into) :
    ∃ r v, on (copyDirectory base path target) t = (r, v) ∧
      (r = .ok () ↔ u.Compatible source into) ∧
      (r = .ok () → Copied u v into (u.inOrder source)) := by
  have hu := (grown_createDirectory ht hmade).wellFormed
  have hne : source ≠ into := by
    rintro rfl
    exact hapart (List.prefix_refl _)
  obtain ⟨r, v, hon, hiff, hcopied⟩ := on_copyEntries hu hne (pairwise_precedes hu source)
    (fun a ha => ((mem_inOrder hu).1 ha).1) fun a ha => hmix.admits hu ha
  refine ⟨r, v, ?_, hiff.trans (hmix.fits_iff hu), hcopied⟩
  have hfar : (decide (source ≠ into) && (below? source into).isSome) = false := by
    simp [below?_eq_none.2 hapart]
  simp only [copyDirectory, on_bind, hmade, on_get, hsource, Entry.isDirectory]
  rw [if_neg (by simp)]
  simp only [hfar]
  exact hon

/-- A copy into a vacant directory shows what the original shows, and nothing else is changed. -/
theorem on_copyDirectory (ht : t.WellFormed)
    (hmade : on (createDirectory base target) t = (.ok into, u))
    (hsource : u.find? base path = some (source, .directory)) (hapart : ¬source <+: into)
    (hvacant : u.Vacant into) (hinto : u.OutsideStores into) (hout : u.OutsideStores source) :
    ∃ v, on (copyDirectory base path target) t = (.ok (), v) ∧ v.WellFormed ∧
      v.mount = u.mount ∧ (∀ w, w ≠ [] → v.get? (into ++ w) = u.get? (source ++ w)) ∧
        ∀ k, (∀ w, w ≠ [] → k ≠ into ++ w) → v.get? k = u.get? k := by
  have hu := (grown_createDirectory ht hmade).wellFormed
  have hmix : u.Unmixed source into := by
    refine ⟨hout, hinto, fun w s hs w' => ?_, fun w s hs => ?_⟩
    · have hw : w ≠ [] := by
        rintro rfl
        exact hout _ s (by simp) hs
      rw [List.append_assoc]
      exact hvacant (w ++ w') (by simp [hw])
    · refine absurd hs (hinto.append hvacant w _ s (List.prefix_refl _))
  obtain ⟨r, v, hon, hiff, hcopied⟩ := copyDirectory_cases ht hmade hsource hapart hmix
  have hr : r = .ok () := by
    refine hiff.2 fun w a b hw _ hb => ?_
    rw [hvacant w hw] at hb
    cases hb
  have hcopied := hcopied hr
  refine ⟨v, hr ▸ hon, hcopied.wellFormed, hcopied.mount, fun w hw => ?_, fun k hk => ?_⟩
  · rw [hcopied.get?_append hu hmix hw, hvacant w hw, Option.or_none]
  · exact hcopied.get?_of_not_below hu hk

/-! ### Copying over what is there -/

/-- The tree when the directories of a path have been made. -/
def prepared (t : FileTree) (base : Location) (path : String) : FileTree :=
  (on (createDirectory base path) t).2

theorem grown_prepared (ht : t.WellFormed) (base : Location) (path : String) :
    Grown t (t.prepared base path) (t.way base path) :=
  grown_createDirectory ht (on_eq ..)

/-- What is seen at a location has not changed, or it is a directory that was made where nothing
was, at one of some locations. -/
def Untouched (t v : FileTree) (made : List Location) (l : Location) : Prop :=
  v.get? l = t.get? l ∨ t.get? l = none ∧ v.get? l = some .directory ∧ l ∈ made

/-- A directory lies over another one: what it has is seen there, and all else is left, but for
directories that were made at some locations. -/
structure LaidOver (t v : FileTree) (source into : Location) (made : List Location) : Prop where
  source_kept : ∀ w, Untouched t v made (source ++ w)
  copied : ∀ w e, v.get? (source ++ w) = some e → v.get? (into ++ w) = some e
  kept : ∀ w, v.get? (source ++ w) = none → Untouched t v made (into ++ w)
  elsewhere : ∀ k, ¬into <+: k → Untouched t v made k

theorem not_append_prefix_self (hw : w ≠ []) : ¬into ++ w <+: into := by
  intro hle
  have hlength := hle.length_le
  rw [List.length_append] at hlength
  exact hw (List.length_eq_zero_iff.1 (by omega))

/-- A path that does not go up. -/
def Straight (t : FileTree) (base : Location) (path : String) : Prop :=
  ∀ found, t.origin? base path = some found → ".." ∉ found.2

theorem Straight.prefix_of_mem_way (h : t.Straight base target) (hinto : t.lead? base target = some into)
    (hk : k ∈ t.way base target) : k <+: into := by
  obtain ⟨⟨l, parts⟩, ho, rfl⟩ := Option.map_eq_some_iff.1 hinto
  rw [way, ho] at hk
  exact prefix_of_mem_passed (h _ ho) hk

/-- A directory lies over another one: what it has is seen there, and nothing else has changed but for
what is on the way to the other one. -/
structure LaidExactly (t v : FileTree) (source into : Location) : Prop where
  source_kept : ∀ w, v.get? (source ++ w) = t.get? (source ++ w)
  copied : ∀ w e, t.get? (source ++ w) = some e → v.get? (into ++ w) = some e
  kept : ∀ w, w ≠ [] → t.get? (source ++ w) = none → v.get? (into ++ w) = t.get? (into ++ w)
  elsewhere : ∀ k, ¬into <+: k → ¬k <+: into → v.get? k = t.get? k

/-- Nothing is excepted if the path to the target does not go up: all that it makes is on the way. -/
theorem LaidOver.exactly (h : LaidOver t v source into (t.way base target))
    (hstraight : t.Straight base target) (hinto : t.lead? base target = some into)
    (hapart : ¬source <+: into) : LaidExactly t v source into := by
  have hkept : ∀ k, ¬k <+: into → Untouched t v (t.way base target) k → v.get? k = t.get? k := by
    rintro k hk (heq | ⟨-, -, hmem⟩)
    · exact heq
    · exact absurd (hstraight.prefix_of_mem_way hinto hmem) hk
  have hsource : ∀ w, v.get? (source ++ w) = t.get? (source ++ w) := fun w =>
    hkept _ (fun hle => hapart ((List.prefix_append source w).trans hle)) (h.source_kept w)
  refine ⟨hsource, fun w e he => h.copied w e ((hsource w).trans he), fun w hw hnone => ?_,
    fun k hout hon => hkept k hon (h.elsewhere k hout)⟩
  exact hkept _ (not_append_prefix_self hw) (h.kept w ((hsource w).trans hnone))

/-- A copy that succeeds has made the target and found the source, which is a directory. -/
theorem copyDirectory_eq_ok (ht : t.WellFormed) (hinto : t.lead? base target = some into)
    (hsource : t.lead? base path = some source)
    (hout : (t.prepared base target).OutsideStores source)
    (h : on (copyDirectory base path target) t = (.ok (), v)) :
    (on (createDirectory base target) t).1 = .ok into ∧
      (t.prepared base target).find? base path = some (source, .directory) := by
  simp only [copyDirectory, on_bind] at h
  rcases hmade : on (createDirectory base target) t with ⟨r, u⟩
  have hu : t.prepared base target = u := congrArg Prod.snd hmade
  rw [hmade] at h
  rw [hu] at hout ⊢
  cases r with
  | error e => cases h
  | ok k =>
    have hk := hinto.symm.trans (lead?_of_createDirectory ht hmade)
    cases hk
    refine ⟨rfl, ?_⟩
    simp only [on_get] at h
    cases hfind : u.find? base path with
    | none =>
      rw [hfind] at h
      cases h
    | some found =>
      obtain ⟨l, e⟩ := found
      rw [hfind] at h
      obtain ⟨hl, he⟩ := find?_eq_some.1 hfind
      have hlead := lead?_of_locate? hl
      rw [lead?_congr (grown_createDirectory ht hmade).mount, hsource] at hlead
      cases hlead
      cases e with
      | directory => rfl
      | text s => cases h
      | store s => exact absurd he (hout _ s (List.prefix_refl _))

theorem Copied.laidOver {made : List Location} (hgrown : Grown t u made)
    (hsource : u.get? source = some .directory) (hinto : u.get? into = some .directory)
    (hapart : ¬source <+: into ∧ ¬into <+: source) (hmix : u.Unmixed source into)
    (h : Copied u v into (u.inOrder source)) : LaidOver t v source into made := by
  have hu := hgrown.wellFormed
  have hother : ∀ k, (∀ w, w ≠ [] → k ≠ into ++ w) → Untouched t v made k := by
    intro k hk
    rw [Untouched, h.get?_of_not_below hu hk]
    exact hgrown.seen k
  have hbeside : ∀ w w', source ++ w ≠ into ++ w' := by
    intro w w' heq
    rcases List.prefix_or_prefix_of_prefix (List.prefix_append source w)
      (heq ▸ List.prefix_append into w') with hle | hle
    · exact hapart.1 hle
    · exact hapart.2 hle
  have hfrom : ∀ w, v.get? (source ++ w) = u.get? (source ++ w) := fun w =>
    h.get?_of_not_below hu fun w' _ => hbeside w w'
  refine ⟨fun w => hother _ fun w' _ => hbeside w w', fun w e he => ?_, fun w hnone => ?_,
    fun k hk => hother k ?_⟩
  · rw [hfrom] at he
    by_cases hw : w = []
    · subst hw
      rw [List.append_nil] at he ⊢
      rw [h.get?_of_not_below hu, hinto, ← hsource, he]
      intro w hw heq
      simp [hw] at heq
    · rw [h.get?_append hu hmix hw, he, Option.some_or]
  · rw [hfrom] at hnone
    have hw : w ≠ [] := by
      rintro rfl
      rw [List.append_nil, hsource] at hnone
      cases hnone
    rw [Untouched, h.get?_append hu hmix hw, hnone, Option.none_or]
    exact hgrown.seen _
  · rintro w - rfl
    exact hk (List.prefix_append ..)

/-- A directory that is copied comes to lie over the target. The copy succeeds exactly if the target
can be made, the source is a directory, and then no file meets a directory. -/
theorem copied_over (ht : t.WellFormed) (hbase : t.isDirectory base = true)
    (hsource : t.lead? base path = some source) (hinto : t.lead? base target = some into)
    (hapart : ¬source <+: into ∧ ¬into <+: source)
    (hmix : (t.prepared base target).Unmixed source into) :
    (∀ v, on (copyDirectory base path target) t = (.ok (), v) →
      LaidOver t v source into (t.way base target)) ∧
    ((∃ v, on (copyDirectory base path target) t = (.ok (), v)) ↔
      (on (createDirectory base target) t).1 = .ok into ∧
        (t.prepared base target).find? base path = some (source, .directory) ∧
          (t.prepared base target).Compatible source into) := by
  have hcases : (on (createDirectory base target) t).1 = .ok into →
      (t.prepared base target).find? base path = some (source, .directory) →
      ∃ r v, on (copyDirectory base path target) t = (r, v) ∧
        (r = .ok () ↔ (t.prepared base target).Compatible source into) ∧
        (r = .ok () → LaidOver t v source into (t.way base target)) := by
    intro hmade hfind
    have hon : on (createDirectory base target) t = (.ok into, t.prepared base target) :=
      Prod.ext hmade rfl
    obtain ⟨r, v, hcopy, hiff, hcopied⟩ := copyDirectory_cases ht hon hfind hapart.1 hmix
    refine ⟨r, v, hcopy, hiff, fun hr =>
      (hcopied hr).laidOver (grown_prepared ht ..) (find?_eq_some.1 hfind).2 ?_ hapart hmix⟩
    exact hmix.into_outside.get?_eq_directory (isDirectory_of_createDirectory ht hbase hon)
  have hok : ∀ v, on (copyDirectory base path target) t = (.ok (), v) →
      ((on (createDirectory base target) t).1 = .ok into ∧
        (t.prepared base target).find? base path = some (source, .directory) ∧
          (t.prepared base target).Compatible source into) ∧
        LaidOver t v source into (t.way base target) := by
    intro v hv
    obtain ⟨hmade, hfind⟩ := copyDirectory_eq_ok ht hinto hsource hmix.source_outside hv
    obtain ⟨r, v', hcopy, hiff, hlaid⟩ := hcases hmade hfind
    rw [hv] at hcopy
    cases hcopy
    exact ⟨⟨hmade, hfind, hiff.1 rfl⟩, hlaid rfl⟩
  refine ⟨fun v hv => (hok v hv).2, fun ⟨v, hv⟩ => (hok v hv).1, ?_⟩
  rintro ⟨hmade, hfind, hcompatible⟩
  obtain ⟨r, v, hcopy, hiff, -⟩ := hcases hmade hfind
  exact ⟨v, hiff.2 hcompatible ▸ hcopy⟩

/-! ### Paths that do not go up -/

theorem get?_prepared (ht : t.WellFormed) (hstraight : t.Straight base target)
    (hinto : t.lead? base target = some into) (hk : ¬k <+: into) :
    (t.prepared base target).get? k = t.get? k := by
  rcases (grown_prepared ht base target).seen k with heq | ⟨-, -, hmem⟩
  · exact heq
  · exact absurd (hstraight.prefix_of_mem_way hinto hmem) hk

theorem get?_of_prepared_store (ht : t.WellFormed) {s : Git.Store}
    (hs : (t.prepared base target).get? k = some (.store s)) : t.get? k = some (.store s) := by
  rcases (grown_prepared ht base target).seen k with heq | ⟨-, hdirectory, -⟩
  · rw [← heq, hs]
  · rw [hs] at hdirectory
    cases hdirectory

/-- The directories on the way are neither in the source nor below the target. -/
theorem Unmixed.prepared (h : t.Unmixed source into) (ht : t.WellFormed)
    (hstraight : t.Straight base target) (hinto : t.lead? base target = some into)
    (hapart : ¬source <+: into) : (t.prepared base target).Unmixed source into where
  source_outside := fun k s hk hs => h.source_outside k s hk (get?_of_prepared_store ht hs)
  into_outside := fun k s hk hs => h.into_outside k s hk (get?_of_prepared_store ht hs)
  source_store := by
    intro w s hs w'
    have hstore := get?_of_prepared_store ht hs
    have hw : w ≠ [] := by
      rintro rfl
      rw [List.append_nil] at hstore
      exact h.source_outside source s (List.prefix_refl _) hstore
    rw [List.append_assoc, get?_prepared ht hstraight hinto
      (not_append_prefix_self (List.append_ne_nil_of_left_ne_nil hw w')), ← List.append_assoc]
    exact h.source_store w s hstore w'
  into_store := by
    intro w s hs w'
    rw [List.append_assoc, get?_prepared ht hstraight hinto
      fun hle => hapart ((List.prefix_append source _).trans hle), ← List.append_assoc]
    exact h.into_store w s (get?_of_prepared_store ht hs) w'

theorem compatible_prepared_iff (ht : t.WellFormed) (hstraight : t.Straight base target)
    (hinto : t.lead? base target = some into) (hapart : ¬source <+: into) :
    (t.prepared base target).Compatible source into ↔ t.Compatible source into := by
  have hsource : ∀ w, (t.prepared base target).get? (source ++ w) = t.get? (source ++ w) := fun w =>
    get?_prepared ht hstraight hinto fun hle => hapart ((List.prefix_append source w).trans hle)
  refine forall_congr' fun w => forall₂_congr fun a b => forall_congr' fun hw => ?_
  rw [hsource, get?_prepared ht hstraight hinto (not_append_prefix_self hw)]

/-- A directory that is copied to a path that does not go up is laid over what is there: the source
stays as it is, all of it is seen at the target, and what the source does not have is as it was. The
copy succeeds exactly if the target can be made, the source is a directory, and no file meets a
directory. -/
theorem copied_exactly (ht : t.WellFormed) (hbase : t.isDirectory base = true)
    (hsource : t.lead? base path = some source) (hinto : t.lead? base target = some into)
    (hstraight : t.Straight base target) (hapart : ¬source <+: into ∧ ¬into <+: source)
    (hmix : t.Unmixed source into) :
    (∀ v, on (copyDirectory base path target) t = (.ok (), v) → LaidExactly t v source into) ∧
    ((∃ v, on (copyDirectory base path target) t = (.ok (), v)) ↔
      (on (createDirectory base target) t).1 = .ok into ∧
        (t.prepared base target).find? base path = some (source, .directory) ∧
          t.Compatible source into) := by
  obtain ⟨hlaid, hiff⟩ := copied_over ht hbase hsource hinto hapart
    (hmix.prepared ht hstraight hinto hapart.1)
  rw [compatible_prepared_iff ht hstraight hinto hapart.1] at hiff
  exact ⟨fun v hv => (hlaid v hv).exactly hstraight hinto hapart.1, hiff⟩

/-- Two directories that both have a directory with a file in it. -/
def overlapping : FileTree where
  mount := "/work"
  entries := [(["src"], .directory), (["src", "lib"], .directory), (["src", "lib", "f"], .text "1"),
    (["out"], .directory), (["out", "lib"], .directory), (["out", "lib", "f"], .text "0"),
    (["out", "lib", "g"], .text "2")]

def overlappingDetour : FileTree := overlapping.put ["out", "x"] .directory

theorem Unmixed.compatible_of_below (hmix : t.Unmixed ["src"] ["out"]) (ht : t.WellFormed)
    (hbelow : t.below ["src"] = [(["lib"], .directory), (["lib", "f"], .text "1")])
    (hlib : t.get? ["out", "lib"] = some .directory)
    (hf : t.get? ["out", "lib", "f"] = some (.text "0")) : t.Compatible ["src"] ["out"] := by
  refine (hmix.fits_iff ht).1 fun a ha => ?_
  rw [inOrder, List.mem_mergeSort, hbelow, List.mem_cons, List.mem_singleton] at ha
  rcases ha with rfl | rfl <;> rintro e he
  · cases hlib.symm.trans he
    rfl
  · cases hf.symm.trans he
    rfl

theorem overlapping_storeless (k : Location) (s : Git.Store) :
    overlapping.own? k ≠ some (.store s) := by
  intro hs
  simpa [overlapping] using mem_entries_of_own? hs

theorem overlapping_wellFormed : overlapping.WellFormed :=
  wellFormed_of_storeless (by decide +kernel) (by decide +kernel) (by decide +kernel) rfl
    overlapping_storeless

theorem overlapping_origin? : overlapping.origin? [] "src" = some ([], ["src"]) ∧
    overlapping.origin? [] "out/x/.." = some ([], ["out", "x", ".."]) := by
  decide +kernel

theorem overlapping_lead? : overlapping.lead? [] "src" = some ["src"] ∧
    overlapping.lead? [] "out/x/.." = some ["out"] := by
  rw [lead?, lead?, overlapping_origin?.1, overlapping_origin?.2]
  decide

theorem on_createDirectory_overlapping : on (createDirectory [] "out/x/..") overlapping =
    (.ok ["out"], overlappingDetour) :=
  (on_createDirectory overlapping_origin?.2 (by decide)).trans rfl

theorem overlappingDetour_grown :
    Grown overlapping overlappingDetour (overlapping.way [] "out/x/..") :=
  grown_createDirectory overlapping_wellFormed on_createDirectory_overlapping

theorem overlappingDetour_find? :
    overlappingDetour.find? [] "src" = some (["src"], .directory) := by
  have horigin : overlappingDetour.origin? [] "src" = some ([], ["src"]) :=
    (origin?_congr overlappingDetour_grown.mount).trans overlapping_origin?.1
  refine find?_eq_some.2 ⟨?_, rfl⟩
  rw [locate?, horigin]
  rfl

theorem overlappingDetour_unmixed : overlappingDetour.Unmixed ["src"] ["out"] :=
  unmixed_of_storeless fun k s hs => overlapping_storeless k s
    ((own?_eq_store_iff overlapping_wellFormed.root).2 (overlappingDetour_grown.store hs))

theorem overlappingDetour_compatible : overlappingDetour.Compatible ["src"] ["out"] :=
  overlappingDetour_unmixed.compatible_of_below overlappingDetour_grown.wellFormed rfl rfl rfl

theorem overlapping_out : overlapping.origin? [] "out" = some ([], ["out"]) ∧
    overlapping.lead? [] "out" = some ["out"] := by
  have horigin : overlapping.origin? [] "out" = some ([], ["out"]) := by decide +kernel
  exact ⟨horigin, by rw [lead?, horigin]; rfl⟩

/-- A directory is laid over another one: the file that both have is that of the source, and the other
one is left. -/
theorem copied_exactly_overlapping : overlapping.WellFormed ∧ overlapping.isDirectory [] = true ∧
    overlapping.lead? [] "src" = some ["src"] ∧ overlapping.lead? [] "out" = some ["out"] ∧
    overlapping.Straight [] "out" ∧ (¬["src"] <+: ["out"] ∧ ¬["out"] <+: ["src"]) ∧
    overlapping.Unmixed ["src"] ["out"] ∧
    ∃ v, on (copyDirectory [] "src" "out") overlapping = (.ok (), v) ∧
      LaidExactly overlapping v ["src"] ["out"] ∧ v.get? ["out", "lib", "f"] = some (.text "1") ∧
      v.get? ["out", "lib", "g"] = some (.text "2") := by
  have hstraight : overlapping.Straight [] "out" := by
    intro found hfound
    rw [overlapping_out.1, Option.some.injEq] at hfound
    rw [← hfound]
    decide
  have hmix : overlapping.Unmixed ["src"] ["out"] := unmixed_of_storeless fun k s hs =>
    overlapping_storeless k s ((own?_eq_store_iff overlapping_wellFormed.root).2 hs)
  have hmade : on (createDirectory [] "out") overlapping = (.ok ["out"], overlapping) :=
    (on_createDirectory overlapping_out.1 (by decide)).trans rfl
  have hprepared : overlapping.prepared [] "out" = overlapping := congrArg Prod.snd hmade
  have hfind : overlapping.find? [] "src" = some (["src"], .directory) :=
    find?_eq_some.2 ⟨by rw [locate?, overlapping_origin?.1]; rfl, rfl⟩
  have hcompatible : overlapping.Compatible ["src"] ["out"] :=
    hmix.compatible_of_below overlapping_wellFormed rfl rfl rfl
  have hover := copied_exactly overlapping_wellFormed rfl overlapping_lead?.1 overlapping_out.2
    hstraight (by decide) hmix
  rw [hprepared] at hover
  obtain ⟨v, hv⟩ := hover.2.2 ⟨congrArg Prod.fst hmade, hfind, hcompatible⟩
  have hlaid := hover.1 v hv
  exact ⟨overlapping_wellFormed, rfl, overlapping_lead?.1, overlapping_out.2, hstraight, by decide, hmix,
    v, hv, hlaid, hlaid.copied ["lib", "f"] _ rfl, hlaid.kept ["lib", "g"] (by simp) rfl⟩

/-- A path that goes up can leave a directory behind in the target, which neither the source nor the
target had before. -/
theorem not_kept_detour : overlapping.WellFormed ∧ overlapping.lead? [] "src" = some ["src"] ∧
    overlapping.lead? [] "out/x/.." = some ["out"] ∧
    (¬["src"] <+: ["out"] ∧ ¬["out"] <+: ["src"]) ∧
    ∃ v, on (copyDirectory [] "src" "out/x/..") overlapping = (.ok (), v) ∧
      ¬∀ w, v.get? (["src"] ++ w) = none → v.get? (["out"] ++ w) = overlapping.get? (["out"] ++ w) := by
  obtain ⟨r, v, hon, hiff, hcopied⟩ := copyDirectory_cases overlapping_wellFormed
    on_createDirectory_overlapping overlappingDetour_find? (by decide) overlappingDetour_unmixed
  have hr := hiff.2 overlappingDetour_compatible
  have hu := overlappingDetour_grown.wellFormed
  have hsource : v.get? ["src", "x"] = none := by
    rw [(hcopied hr).get?_of_not_below hu]
    · rfl
    · rintro w - heq
      simp at heq
  have hmade : v.get? ["out", "x"] = some .directory := by
    exact (hcopied hr).get?_append hu overlappingDetour_unmixed (w := ["x"]) (by simp)
  refine ⟨overlapping_wellFormed, overlapping_lead?.1, overlapping_lead?.2, by decide, v, hr ▸ hon,
    fun h => ?_⟩
  have heq := h ["x"] hsource
  rw [List.singleton_append, hmade] at heq
  cases heq

end FileTree

end ReleaseHistory
