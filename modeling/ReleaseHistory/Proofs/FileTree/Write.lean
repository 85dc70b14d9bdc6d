import ReleaseHistory.Proofs.WorkTree.Files

/-!
# What writing a file leaves

A file that was written lies where its path leads, in directories that are all there. Writing keeps
every directory and every file but the one that is written. Only a file that a store writes itself,
which is one for a branch or for what is checked out, is not kept as it was written.
-/

namespace ReleaseHistory

open Operation

namespace FileTree

variable {t u v : FileTree} {base l k m way rest : Location} {e : Entry} {path text part : String}
  {parts : List String} {s : Git.Store}

/-! ### Directories -/

theorem isDirectory_iff :
    t.isDirectory l = true ↔ l = [] ∨ ∃ e, t.own? l = some e ∧ e.isDirectory = true := by
  by_cases hl : l = []
  · subst hl
    exact ⟨fun _ => .inl rfl, fun _ => rfl⟩
  rw [isDirectory]
  cases hown : t.own? l with
  | some e => simp [get?_of_own? hl hown, hl]
  | none =>
    -- what a store writes itself is a text
    rw [get?_of_own?_eq_none hl hown]
    cases habove : t.storeAbove? l with
    | none => simp [hl]
    | some found => cases hfile : found.2.1.file? found.2.2 <;> simp [hl, hfile, Entry.isDirectory]

theorem isDirectory_put (h : t.isDirectory k = true) (he : k = l → e.isDirectory = true) :
    (t.put l e).isDirectory k = true := by
  rw [isDirectory_iff] at h ⊢
  rw [own?_put]
  by_cases hk : k = l
  · rw [if_pos hk]
    exact .inr ⟨e, rfl, he hk⟩
  · rwa [if_neg hk]

/-- A way that ends below a location goes through it, unless it begins below it. -/
theorem isDirectory_of_foldlM_below (h : parts.foldlM t.step? m = some l) (hk : k <+: l)
    (hne : k ≠ l) (hm : k <+: m → k = m) : t.isDirectory k = true := by
  induction parts generalizing m with
  | nil =>
    cases h
    exact absurd (hm hk) hne
  | cons part parts ih =>
    rw [List.foldlM_cons] at h
    obtain ⟨next, hstep, hrest⟩ := Option.bind_eq_some_iff.1 h
    obtain ⟨hdirectory, -, -, rfl⟩ := step?_eq_some.1 hstep
    by_cases hhere : k = m
    · rwa [hhere]
    · have hnot : ¬k <+: m := fun hkm => hhere (hm hkm)
      apply ih hrest
      unfold go
      split_ifs
      · exact fun hkm => absurd hkm hnot
      · exact fun hkm => absurd (hkm.trans (List.dropLast_prefix m)) hnot
      · rw [List.prefix_concat_iff]
        exact fun hkm => hkm.resolve_right hnot

/-! ### What stays -/

/-- A tree after another one: directories stay, texts stay but for one location, and there are no
stores but where there were some. -/
structure Retains (l : Location) (t u : FileTree) : Prop where
  mount : u.mount = t.mount
  directories : ∀ k, t.isDirectory k = true → u.isDirectory k = true
  texts : ∀ k text, k ≠ l → (∀ s, (k, Entry.store s) ∉ t.entries) → t.own? k = some (.text text) →
    u.own? k = some (.text text)
  stores : ∀ k s, (k, Entry.store s) ∈ u.entries → ∃ s', (k, Entry.store s') ∈ t.entries

theorem Retains.refl (l : Location) (t : FileTree) : Retains l t t :=
  ⟨rfl, fun _ h => h, fun _ _ _ _ h => h, fun _ s h => ⟨s, h⟩⟩

theorem Retains.trans (htu : Retains l t u) (huv : Retains l u v) : Retains l t v where
  mount := huv.mount.trans htu.mount
  directories := fun k hk => huv.directories k (htu.directories k hk)
  texts := by
    intro k text hne hno hk
    refine huv.texts k text hne ?_ (htu.texts k text hne hno hk)
    intro s hs
    obtain ⟨s', hs'⟩ := htu.stores k s hs
    exact hno s' hs'
  stores := by
    intro k s hs
    obtain ⟨s', hs'⟩ := huv.stores k s hs
    exact htu.stores k s' hs'

/-- Nothing is lost where no text is put in the place of a directory, and no store but in the place of
another one. -/
theorem retains_put (hdirectory : t.isDirectory m = true → e.isDirectory = true)
    (htext : ∀ text, t.own? m = some (.text text) → m = l ∨ ∃ s, (m, Entry.store s) ∈ t.entries)
    (hstore : ∀ s, e = .store s → ∃ s', (m, Entry.store s') ∈ t.entries) :
    Retains l t (t.put m e) where
  mount := rfl
  directories := fun k hk => isDirectory_put hk fun heq => hdirectory (heq ▸ hk)
  texts := by
    intro k text hne hno hk
    have hkm : k ≠ m := by
      rintro rfl
      rcases htext text hk with heq | ⟨s, hs⟩
      · exact hne heq
      · exact hno s hs
    rw [own?_put, if_neg hkm, hk]
  stores := by
    intro k s hs
    rcases List.mem_cons.1 hs with heq | hs
    · obtain ⟨rfl, he⟩ := Prod.mk.inj heq
      exact hstore s he.symm
    · exact ⟨s, (List.mem_filter.1 hs).1⟩

theorem retains_putText (hl : t.isDirectory l = false) (text : String) :
    Retains l t (t.putText l text) := by
  have hput : Retains l t (t.put l (.text text)) :=
    retains_put (fun h => by rw [hl] at h; cases h) (fun _ _ => .inl rfl) fun _ h => nomatch h
  unfold putText
  split
  · rename_i m s path habove
    have hmem := (exists_of_storeAbove? habove).1
    split
    · exact retains_put (fun _ => rfl) (fun _ _ => .inr ⟨s, hmem⟩) fun _ _ => ⟨s, hmem⟩
    · exact hput
  · exact hput

theorem retains_createDirectories {r : Except Fault Location} (l : Location) (hm : Named m)
    (hparts : Named parts) (h : on (createDirectories m parts) t = (r, u)) : Retains l t u := by
  have hput : ∀ v m, Retains l t v → Named m → v.get? m = none →
      Retains l t (v.put m .directory) := by
    intro v m hv _ hnone
    have hown := own?_eq_none_of_get? hnone
    refine hv.trans (retains_put (fun _ => rfl) ?_ fun _ h => nomatch h)
    intro text htext
    rw [hown] at htext
    cases htext
  exact (createDirectories_keeps hput (Retains.refl l t) hm hparts h).1

/-! ### What is written -/

/-- A file is written if its directories can be made and there is no directory in its place. -/
theorem writeText_eq_ok (hbase : Named base) (h : on (writeText base path text) t = (.ok (), u)) :
    ∃ m parts v l, t.origin? base path = some (m, parts) ∧ t.destination? base path = some l ∧
      (∀ k, Retains k t v) ∧ parts.foldlM v.step? m = some l ∧ v.isDirectory l = false ∧
      u = v.putText l text := by
  simp only [FileTree.writeText, on_bind, on_get] at h
  cases horigin : t.origin? base path with
  | none =>
    rw [horigin] at h
    cases h
  | some found =>
    obtain ⟨m, parts⟩ := found
    obtain ⟨hm, hparts⟩ := named_origin? hbase horigin
    rw [horigin] at h
    dsimp only at h
    split at h
    · cases h
    · have hleading : Named (parts.filter (· ≠ ".")).dropLast := fun part hpart =>
        hparts part (List.mem_filter.1 (List.dropLast_subset _ hpart)).1
      rcases hon : on (createDirectories m (parts.filter (· ≠ ".")).dropLast) t with ⟨r, v⟩
      simp only [on_bind, hon] at h
      cases r with
      | error fault => cases h
      | ok k =>
        have hmade := fun k => retains_createDirectories k hm hleading hon
        simp only [writeHere, on_bind, on_get, locate?, origin?_congr (hmade []).mount, horigin,
          Option.bind_some] at h
        cases hfold : parts.foldlM v.step? m with
        | none =>
          rw [hfold] at h
          cases h
        | some l =>
          rw [hfold] at h
          dsimp only at h
          split at h
          · cases h
          · rename_i hfile
            cases h
            have hl : t.destination? base path = some l := by
              rw [destination?, horigin, Option.map_some, eq_foldl_go hfold]
            exact ⟨m, parts, v, l, rfl, hl, hmade, hfold, by simpa using hfile, rfl⟩

theorem retains_writeText (hbase : Named base) (h : on (writeText base path text) t = (.ok (), u)) :
    ∃ l, t.destination? base path = some l ∧ Retains l t u := by
  obtain ⟨-, -, v, l, -, hl, hmade, -, hfile, rfl⟩ := writeText_eq_ok hbase h
  exact ⟨l, hl, (hmade l).trans (retains_putText hfile text)⟩

/-- A text that is kept at the end of a way below a location, in directories that are there. -/
structure Lies (t : FileTree) (base way : Location) (text : String) : Prop where
  own : t.own? (base ++ way) = some (.text text)
  inside : ∀ k, k <+: way → k ≠ [] → k ≠ way → t.isDirectory (base ++ k) = true

theorem Lies.retained (h : Lies t base way text) (htu : Retains l t u) (hne : base ++ way ≠ l)
    (hno : ∀ s, (base ++ way, Entry.store s) ∉ t.entries) : Lies u base way text where
  own := htu.texts _ text hne hno h.own
  inside := fun k hk hnil hway => htu.directories _ (h.inside k hk hnil hway)

/-- What was written lies where its path leads, if no store takes it as one of its own files. -/
theorem lies_of_writeText (hbase : Named base) (h : on (writeText base path text) t = (.ok (), u))
    (hl : t.destination? base path = some (base ++ way))
    (hno : ∀ m s rest, (m, Entry.store s) ∈ t.entries → base ++ way = m ++ rest →
      ∀ s' : Git.Store, s'.writeFile? (String.intercalate "/" rest) text = none) :
    Lies u base way text := by
  obtain ⟨m, parts, v, l, horigin, hl', hmade, hfold, hfile, rfl⟩ := writeText_eq_ok hbase h
  obtain rfl : base ++ way = l := Option.some.inj (hl.symm.trans hl')
  have hput : v.putText (base ++ way) text = v.put (base ++ way) (.text text) := by
    unfold putText
    split
    · rename_i k s path habove
      obtain ⟨⟨k', e⟩, hmem, heq⟩ := List.exists_of_findSome?_eq_some habove
      dsimp only at heq
      split at heq
      · rename_i part parts hbelow
        cases heq
        obtain ⟨s', hs'⟩ := (hmade k).stores k s hmem
        rw [hno k s' _ hs' (below?_eq_some.1 hbelow) s]
      · cases heq
    · rfl
  rw [hput]
  refine ⟨by rw [own?_put, if_pos rfl], ?_⟩
  intro k hk hnil hway
  have hbelow : base ++ k <+: base ++ way := (List.prefix_append_right_inj base).2 hk
  have hne : base ++ k ≠ base ++ way := fun heq => hway (List.append_cancel_left heq)
  -- the path begins at the base or at the root
  have hstart : base ++ k <+: m → base ++ k = m := by
    intro hkm
    rcases origin?_cases horigin with ⟨-, -, -, rfl, -⟩ | ⟨-, rfl, -⟩
    · exact List.prefix_nil.1 hkm
    · have hlength := hkm.length_le
      rw [List.length_append] at hlength
      exact absurd (List.eq_nil_of_length_eq_zero (by omega)) hnil
  exact isDirectory_put (isDirectory_of_foldlM_below hfold hbelow hne hstart)
    fun heq => absurd heq hne

end FileTree

end ReleaseHistory
