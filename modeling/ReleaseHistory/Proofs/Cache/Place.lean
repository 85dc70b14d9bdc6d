import ReleaseHistory.Proofs.Cache.Session

/-!
# The place of a cache

The root of a cache is a path, and the place that it leads to may have to be made. Below it, each
name has a directory with a repository and a file beside it. Building anew under a name changes what
is seen below that name and nowhere else, except that the way to the place may be made.
-/

namespace ReleaseHistory.CacheSession

open Operation FileTree

def dataName : String := "cache.json"

def repositoryName : String := "repo"

theorem plain_dataName : Plain dataName := by decide

theorem plain_repositoryName : Plain repositoryName := by decide

variable {t u : FileTree} {base start place l k : Location} {root name file : String}
  {ps : List String}

/-! ### Paths -/

/-- A path that leads, part by part, to the place of a cache. -/
structure Anchor (t : FileTree) (base : Location) (root : String) (start : Location)
    (ps : List String) (place : Location) : Prop where
  no_null : '\x00' ∉ root.toList
  origin : ∀ name, Plain name → t.origin? base (Path.join root name) = some (start, ps ++ [name])
  leads : place = ps.foldl go start
  way : passed start ps ⊆ t.way base root
  apart : ∀ k ∈ start :: passed start ps, ∀ w, w ≠ [] → k ≠ place ++ w

theorem Anchor.congr (h : Anchor t base root start ps place) (hmount : u.mount = t.mount) :
    Anchor u base root start ps place where
  no_null := h.no_null
  origin name hname := (origin?_congr hmount).trans (h.origin name hname)
  leads := h.leads
  way := by
    rw [way_congr hmount]
    exact h.way
  apart := h.apart

theorem Anchor.origin_file (h : Anchor t base root start ps place) (ht : t.WellFormed)
    (hname : Plain name) (hfile : Plain file) :
    t.origin? base (Path.join (Path.join root name) file) = some (start, ps ++ [name] ++ [file]) := by
  obtain ⟨ps', hps, horigin⟩ := origin?_join ht (h.origin name hname)
  rcases hps with rfl | hps
  · exact horigin file hfile
  · have hlast := List.append_inj_right' hps rfl
    exact absurd (List.singleton_inj.1 hlast) hname.ne_here

/-- The directories on the way to the place are there. -/
structure Standing (t : FileTree) (start : Location) (ps : List String) (place : Location) :
    Prop where
  leads : ps.foldlM t.step? start = some place
  isDirectory : t.isDirectory place = true

theorem Standing.mono (h : Standing t start ps place)
    (hapart : ∀ k ∈ start :: passed start ps, ∀ w, w ≠ [] → k ≠ place ++ w)
    (hstay : ∀ k, (∀ w, w ≠ [] → k ≠ place ++ w) → t.isDirectory k = true →
      u.isDirectory k = true) : Standing u start ps place where
  leads := foldlM_step?_mono h.leads fun k hk => hstay k (hapart k hk)
  isDirectory := by
    refine hstay place (fun w hw heq => hw ?_) h.isDirectory
    simpa using heq

theorem locate?_eq_of_origin {path : String} (ho : t.origin? base path = some (start, ps))
    (h : t.locate? base path = some l) : l = ps.foldl go start := by
  rw [locate?, ho] at h
  exact eq_foldl_go h

theorem Anchor.locate?_entry_eq (h : Anchor t base root start ps place) (hname : Plain name)
    (hl : t.locate? base (Path.join root name) = some l) : l = place ++ [name] := by
  rw [locate?_eq_of_origin (h.origin name hname) hl, List.foldl_append, ← h.leads]
  exact hname.go_eq place

theorem Anchor.locate?_file_eq (h : Anchor t base root start ps place) (ht : t.WellFormed)
    (hname : Plain name) (hfile : Plain file)
    (hl : t.locate? base (Path.join (Path.join root name) file) = some l) :
    l = place ++ [name, file] := by
  rw [locate?_eq_of_origin (h.origin_file ht hname hfile) hl, List.foldl_append, List.foldl_append,
    ← h.leads]
  simp [hname.go_eq, hfile.go_eq]

theorem step?_name (hname : Plain name) (hl : t.isDirectory l = true) :
    t.step? l name = some (l ++ [name]) :=
  step?_eq_some.2 ⟨hl, hname.isName, fun h => absurd h hname.ne_up, (hname.go_eq l).symm⟩

theorem Anchor.locate?_entry (h : Anchor t base root start ps place)
    (hs : Standing t start ps place) (hname : Plain name) :
    t.locate? base (Path.join root name) = some (place ++ [name]) := by
  rw [locate?, h.origin name hname]
  simp [List.foldlM_append, hs.leads, step?_name hname hs.isDirectory]

theorem Anchor.locate?_file (h : Anchor t base root start ps place) (ht : t.WellFormed)
    (hs : Standing t start ps place) (hname : Plain name) (hfile : Plain file)
    (hdir : t.isDirectory (place ++ [name]) = true) :
    t.locate? base (Path.join (Path.join root name) file) = some (place ++ [name, file]) := by
  rw [locate?, h.origin_file ht hname hfile]
  simp [List.foldlM_append, hs.leads, step?_name hname hs.isDirectory, step?_name hfile hdir]

theorem mem_toList_join {a b : String} {c : Char} (h : c ∈ (Path.join a b).toList) :
    c ∈ a.toList ∨ c = '/' ∨ c ∈ b.toList := by
  rw [Path.join] at h
  split at h
  · exact Or.inr (Or.inr h)
  · split at h
    · rcases List.mem_append.1 (String.toList_append ▸ h) with h | h
      · exact Or.inl h
      · exact Or.inr (Or.inr h)
    · simp only [String.toList_append, List.mem_append, String.reduceToList,
        List.mem_singleton] at h
      rcases h with (h | h) | h
      · exact Or.inl h
      · exact Or.inr (Or.inl h)
      · exact Or.inr (Or.inr h)

theorem Anchor.no_null_file (h : Anchor t base root start ps place) (hname : Plain name)
    (hfile : Plain file) : '\x00' ∉ (Path.join (Path.join root name) file).toList := by
  intro hmem
  rcases mem_toList_join hmem with hmem | hmem | hmem
  · rcases mem_toList_join hmem with hmem | hmem | hmem
    · exact h.no_null hmem
    · cases hmem
    · exact hname.no_null hmem
  · cases hmem
  · exact hfile.no_null hmem

/-! ### Building anew -/

/-- What a session relies on: the tree is well-formed, no store is in the way, and the way to the
place is there or can be made. -/
structure Ground (t : FileTree) (start : Location) (ps : List String) (place : Location) :
    Prop where
  wellFormed : t.WellFormed
  outside : t.OutsideStores place
  ready : ∃ u, on (createDirectories start ps) t = (.ok place, u) ∧ u.isDirectory place = true

theorem Standing.ready (h : Standing t start ps place) :
    ∃ u, on (createDirectories start ps) t = (.ok place, u) ∧ u.isDirectory place = true :=
  ⟨t, createDirectories_of_foldlM h.leads h.isDirectory, h.isDirectory⟩

/-- Files after a build has been begun under a name: the directories for it are there, and what is
not below the name has not changed, except that the way to the place has been made. -/
structure Rebuilt (t u : FileTree) (start : Location) (ps : List String) (place : Location)
    (name : String) : Prop where
  wellFormed : u.WellFormed
  mount : u.mount = t.mount
  standing : Standing u start ps place
  entry : u.get? (place ++ [name]) = some .directory
  repository : u.get? (place ++ [name, repositoryName]) = some .directory
  others : ∀ k, ¬place ++ [name] <+: k →
    u.get? k = t.get? k ∨ t.get? k = none ∧ u.get? k = some .directory ∧ k ∈ passed start ps

theorem Rebuilt.outside (h : Rebuilt t u start ps place name) (hout : t.OutsideStores place) :
    u.OutsideStores place := by
  intro k s hk hs
  have hnot : ¬place ++ [name] <+: k := by
    intro hpre
    have := (hpre.trans hk).length_le
    simp only [List.length_append, List.length_singleton] at this
    omega
  rcases h.others k hnot with heq | ⟨-, hdir, -⟩
  · exact hout k s hk (heq ▸ hs)
  · rw [hdir] at hs
    cases hs

theorem Rebuilt.other_name (h : Rebuilt t u start ps place name)
    (ha : Anchor t base root start ps place) {other : String} (hne : other ≠ name) (w : Location) :
    u.get? (place ++ other :: w) = t.get? (place ++ other :: w) := by
  have hnot : ¬place ++ [name] <+: place ++ other :: w := by
    rw [List.prefix_append_right_inj]
    simpa using hne.symm
  rcases h.others _ hnot with heq | ⟨-, -, hmem⟩
  · exact heq
  · exact absurd rfl (ha.apart _ (List.mem_cons_of_mem _ hmem) (other :: w) (by simp))

theorem outside_file (hout : u.OutsideStores place)
    (hentry : u.get? (place ++ [name]) = some .directory)
    (hfile : ∀ s, u.get? (place ++ [name, file]) ≠ some (.store s)) :
    u.OutsideStores (place ++ [name, file]) := by
  intro k s hk hs
  rcases List.prefix_concat_iff.1 (List.append_cons place name [file] ▸ hk) with rfl | hk
  · exact hfile s (by simpa using hs)
  · rcases List.prefix_concat_iff.1 hk with rfl | hk
    · rw [hentry] at hs
      cases hs
    · exact hout k s hk hs

theorem Anchor.find?_file {e : Entry} (h : Anchor t base root start ps place)
    (ht : t.WellFormed) (hs : Standing t start ps place) (hname : Plain name)
    (hfile : Plain file) (hentry : t.get? (place ++ [name]) = some .directory)
    (he : t.get? (place ++ [name, file]) = some e) :
    t.find? base (Path.join (Path.join root name) file) = some (place ++ [name, file], e) := by
  have hdir : t.isDirectory (place ++ [name]) = true := by
    simp [FileTree.isDirectory, hentry, Entry.isDirectory]
  rw [find?, h.locate?_file ht hs hname hfile hdir, Option.bind_some, he, Option.map_some]

theorem on_createDirectories_name {parts : List String} (hname : Plain name)
    (hl : t.isDirectory l = true) (hnone : t.get? (l ++ [name]) = none) :
    on (createDirectories l (name :: parts)) t =
      on (createDirectories (l ++ [name]) parts) (t.put (l ++ [name]) .directory) := by
  simp only [on_createDirectories_cons, step?_name hname hl, hnone]

/-- Two directories, one in the other, are made where nothing is yet, and nothing else changes. -/
theorem on_createDirectories_pair (ht : t.WellFormed) (hname : Plain name) (hfile : Plain file)
    (hl : t.isDirectory l = true) (hnone : ∀ w, t.get? (l ++ name :: w) = none) :
    ∃ u, on (createDirectories l [name, file]) t = (.ok (l ++ [name, file]), u) ∧
      Grown t u [l ++ [name], l ++ [name, file]] ∧ ∀ k, u.get? k =
        if k = l ++ [name, file] then some .directory
        else if k = l ++ [name] then some .directory else t.get? k := by
  have hfirst := grown_put ht (hnone [])
  have hget : ∀ k, (t.put (l ++ [name]) .directory).get? k =
      if k = l ++ [name] then some .directory else t.get? k :=
    fun k => get?_put ht (hnone []) (by simp)
  have hnone' : (t.put (l ++ [name]) .directory).get? (l ++ [name] ++ [file]) = none := by
    rw [hget, if_neg (by simp), List.append_assoc]
    exact hnone [file]
  have hdir : (t.put (l ++ [name]) .directory).isDirectory (l ++ [name]) = true := by
    simp [FileTree.isDirectory, hget, Entry.isDirectory]
  have hsecond := grown_put hfirst.wellFormed hnone'
  have happend : l ++ [name] ++ [file] = l ++ [name, file] := by simp
  refine ⟨_, ?_, (hfirst.mono ?_).trans (hsecond.mono ?_), fun k => ?_⟩
  · rw [on_createDirectories_name hname hl (hnone []),
      on_createDirectories_name hfile hdir hnone', createDirectories, on_pure, happend]
  · simp
  · simp
  · rw [get?_put hfirst.wellFormed hnone' (by simp), hget, happend]

/-- Making the directories of a repository in a place that has nothing under its name. -/
theorem on_createRepository (ha : Anchor t base root start ps place)
    (hg : Ground t start ps place) (hname : Plain name)
    (hnone : ∀ w, t.get? (place ++ name :: w) = none) :
    ∃ u, on (createDirectory base (Path.join (Path.join root name) repositoryName)) t =
        (.ok (place ++ [name, repositoryName]), u) ∧ Rebuilt t u start ps place name ∧
      u.Vacant (place ++ [name, repositoryName]) ∧ u.get? (place ++ [name, dataName]) = none := by
  obtain ⟨v, hway, hplace⟩ := hg.ready
  have hmade := grown_createDirectories hg.wellFormed hway
  -- the way to the place does not go below the place
  have hfree : ∀ w, v.get? (place ++ name :: w) = none := by
    intro w
    rcases hmade.seen (place ++ name :: w) with heq | ⟨-, -, hmem⟩
    · rw [heq, hnone]
    · exact absurd rfl (ha.apart _ (List.mem_cons_of_mem _ hmem) (name :: w) (by simp))
  obtain ⟨u, hon, hgrown, hget⟩ :=
    on_createDirectories_pair hmade.wellFormed hname plain_repositoryName hplace hfree
  have hleads := (foldlM_of_createDirectories hg.wellFormed hway).1
  refine ⟨u, ?_, ⟨hgrown.wellFormed, hgrown.mount.trans hmade.mount, ⟨?_, ?_⟩, ?_, ?_,
    fun k hk => ?_⟩, fun w hw => ?_, ?_⟩
  · rw [on_createDirectory (ha.origin_file hg.wellFormed hname plain_repositoryName)
      (ha.no_null_file hname plain_repositoryName), List.append_assoc,
      createDirectories_append hg.wellFormed, on_bind_of_ok hway]
    exact hon
  · exact foldlM_step?_mono hleads fun k _ => hgrown.isDirectory
  · exact hgrown.isDirectory hplace
  · rw [hget, if_neg (by simp), if_pos rfl]
  · rw [hget, if_pos rfl]
  · have hrepository : k ≠ place ++ [name, repositoryName] := by
      rintro rfl
      exact hk ⟨[repositoryName], by simp⟩
    have hentry : k ≠ place ++ [name] := by
      rintro rfl
      exact hk (List.prefix_refl _)
    rw [hget, if_neg hrepository, if_neg hentry]
    exact hmade.seen k
  · rw [hget, if_neg (by simpa using hw), if_neg (by simp), List.append_assoc]
    exact hfree (repositoryName :: w)
  · rw [hget, if_neg (by simp [dataName, repositoryName]), if_neg (by simp)]
    exact hfree [dataName]

/-- Before a build, nothing is seen under its name, or the directory of the name is found. -/
def Clearable (t : FileTree) (start : Location) (ps : List String) (place : Location)
    (name : String) : Prop :=
  (∀ w, t.get? (place ++ name :: w) = none) ∨
    t.get? (place ++ [name]) = some .directory ∧ Standing t start ps place

theorem Ground.get?_erase (hg : Ground t start ps place) (name : String) (k : Location) :
    (t.erase (place ++ [name])).get? k = if place ++ [name] <+: k then none else t.get? k :=
  FileTree.get?_erase hg.wellFormed (by simp) (by simpa using hg.outside)

/-- Without what is under a name, all is as it was but below the place. -/
theorem Ground.get?_erase_of_not_below (hg : Ground t start ps place) (name : String)
    {k : Location} (hk : ∀ w, w ≠ [] → k ≠ place ++ w) :
    (t.erase (place ++ [name])).get? k = t.get? k := by
  rw [hg.get?_erase, if_neg]
  rintro ⟨w, rfl⟩
  exact hk (name :: w) (by simp) (by simp)

theorem Standing.erase (hs : Standing t start ps place) (hg : Ground t start ps place)
    (ha : Anchor t base root start ps place) (name : String) :
    Standing (t.erase (place ++ [name])) start ps place :=
  hs.mono ha.apart fun k hk => by
    simp [FileTree.isDirectory, hg.get?_erase_of_not_below name hk]

theorem Ground.erase (hg : Ground t start ps place) (hs : Standing t start ps place)
    (ha : Anchor t base root start ps place) (name : String) :
    Ground (t.erase (place ++ [name])) start ps place where
  wellFormed := hg.wellFormed.erase _
  outside k s hk := by
    rw [hg.get?_erase_of_not_below]
    · exact hg.outside k s hk
    · rintro w hw rfl
      exact hw (by simpa using hk.eq_of_length_le (by simp))
  ready := (hs.erase hg ha name).ready

/-- The directories of a repository are made anew: nothing is left of what was there. -/
theorem on_makeAnew (ha : Anchor t base root start ps place) (hg : Ground t start ps place)
    (hname : Plain name) (hclear : Clearable t start ps place name) :
    ∃ u, on (makeAnew (Path.join root name) (Path.join (Path.join root name) repositoryName) base) t =
        (.ok (place ++ [name, repositoryName]), u) ∧ Rebuilt t u start ps place name ∧
      u.Vacant (place ++ [name, repositoryName]) ∧ u.get? (place ++ [name, dataName]) = none := by
  rcases hclear with hnone | ⟨hdir, hstanding⟩
  · have hfind : t.find? base (Path.join root name) = none := by
      rw [find?]
      cases hl : t.locate? base (Path.join root name) with
      | none => rfl
      | some l =>
        rw [ha.locate?_entry_eq hname hl, Option.bind_some, hnone []]
        rfl
    obtain ⟨u, hon, h⟩ := on_createRepository ha hg hname hnone
    refine ⟨u, ?_, h⟩
    simp only [makeAnew, on_bind, on_get, hfind]
    exact hon
  · have hfind : t.find? base (Path.join root name) = some (place ++ [name], .directory) := by
      rw [find?, ha.locate?_entry hstanding hname, Option.bind_some, hdir]
      rfl
    have herased : ∀ w, (t.erase (place ++ [name])).get? (place ++ name :: w) = none := by
      intro w
      rw [hg.get?_erase, if_pos ⟨w, by simp⟩]
    obtain ⟨u, hon, h, hvacant, hdata⟩ :=
      on_createRepository (ha.congr erase_mount) (hg.erase hstanding ha name) hname herased
    refine ⟨u, ?_, ⟨h.wellFormed, h.mount, h.standing, h.entry, h.repository, fun k hk => ?_⟩,
      hvacant, hdata⟩
    · simp only [makeAnew, on_bind, on_get, hfind, Option.isSome_some, if_true, Option.any_some,
        Entry.isDirectory, on_remove hfind (List.append_ne_nil_of_right_ne_nil _ (by simp))]
      exact hon
    · have := h.others k hk
      rwa [hg.get?_erase, if_neg hk] at this

end ReleaseHistory.CacheSession
