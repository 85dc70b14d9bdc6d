import ReleaseHistory.Path
import ReleaseHistory.Proofs.FileTree.View
import ReleaseHistory.Proofs.Operation
import ReleaseHistory.Proofs.Text.Split

/-!
# Ways through a file tree

A path leads through the locations that its parts name, one after the other. A name added to a path
leads one location further, however the path is written. Making the directories of a path makes
nothing but directories, and only on the way.
-/

namespace ReleaseHistory

open Operation

namespace FileTree

variable {t u : FileTree} {base l k : Location} {part : String} {parts : List String}

/-! ### Paths -/

/-- A name that can be a part of a path by itself. -/
structure Plain (name : String) : Prop where
  isName : isName name = true
  ne_empty : name ≠ ""
  ne_here : name ≠ "."
  ne_up : name ≠ ".."
  no_slash : '/' ∉ name.toList

instance (name : String) : Decidable (Plain name) :=
  decidable_of_iff (FileTree.isName name = true ∧ name ≠ "" ∧ name ≠ "." ∧ name ≠ ".." ∧
      '/' ∉ name.toList)
    ⟨fun ⟨hname, hempty, hhere, hup, hslash⟩ => ⟨hname, hempty, hhere, hup, hslash⟩,
      fun h => ⟨h.isName, h.ne_empty, h.ne_here, h.ne_up, h.no_slash⟩⟩

theorem Plain.no_null {name : String} (h : Plain name) : '\x00' ∉ name.toList := by
  have hname := h.isName
  rw [FileTree.isName, Bool.and_eq_true] at hname
  simpa using hname.2

/-- The parts of a path without a slash at its end. -/
def pieces (path : String) : List String := (Text.splitOn '/' path).filter (· ≠ "")

theorem endsWith_iff (s pattern : String) :
    s.endsWith pattern = true ↔ pattern.toList <:+ s.toList := by
  have hslice : s.endsWith pattern = s.toSlice.endsWith pattern := rfl
  rw [hslice, String.Slice.endsWith_string_iff, String.copy_toSlice]

theorem Plain.pieces_eq {name : String} (h : Plain name) : pieces name = [name] := by
  simp [pieces, Text.splitOn, Text.splitAll_of_not_mem h.no_slash, h.ne_empty]

theorem Plain.endsWith_append {name : String} (h : Plain name) (a : String) :
    (a ++ name).endsWith "/" = false := by
  rw [← Bool.not_eq_true, endsWith_iff]
  rintro ⟨cs, hcs⟩
  rw [String.toList_append] at hcs
  have hlast := congrArg List.getLast? hcs
  have hname : name.toList ≠ [] := by simpa using h.ne_empty
  rw [List.getLast?_append_of_ne_nil _ hname] at hlast
  exact h.no_slash (List.mem_of_getLast? (by simpa using hlast.symm))

theorem pieces_append_slash (a b : String) : pieces (a ++ "/" ++ b) = pieces a ++ pieces b := by
  simp [pieces, Text.splitOn, Text.splitAll_append]

/-- A slash at the end of a path is the one in front of a name. -/
theorem Plain.pieces_append {a name : String} (h : Plain name) (ha : a.endsWith "/" = true) :
    pieces (a ++ name) = pieces a ++ [name] := by
  obtain ⟨cs, hcs⟩ := (endsWith_iff a "/").1 ha
  have heq : a = String.ofList cs ++ "/" := by
    apply String.toList_injective
    simpa using hcs.symm
  have hslash : pieces (String.ofList cs ++ "/") = pieces (String.ofList cs) := by
    have := pieces_append_slash (String.ofList cs) ""
    simpa [pieces, Text.splitOn, Text.splitAll] using this
  rw [heq, pieces_append_slash, hslash, h.pieces_eq]

theorem Plain.startsWith_eq_false {name : String} (h : Plain name) :
    name.startsWith "/" = false := by
  rw [String.startsWith_string_eq_false_iff]
  intro hpre
  exact h.no_slash (hpre.subset (by simp))

theorem Plain.join_eq {name : String} (h : Plain name) (a : String) :
    Path.join a name = if a.isEmpty || a.endsWith "/" then a ++ name else a ++ "/" ++ name := by
  rw [Path.join, h.startsWith_eq_false, if_neg (by simp)]

theorem Plain.endsWith_join {name : String} (h : Plain name) (a : String) :
    (Path.join a name).endsWith "/" = false := by
  rw [h.join_eq]
  split
  · exact h.endsWith_append a
  · exact h.endsWith_append (a ++ "/")

theorem partsOf_eq (path : String) :
    partsOf path = pieces path ++ if path.endsWith "/" then ["."] else [] :=
  rfl

theorem partsOf_eq_or (path : String) :
    partsOf path = pieces path ∨ partsOf path = pieces path ++ ["."] := by
  rw [partsOf_eq]
  split <;> simp

theorem origin?_mount_append (t : FileTree) (base : Location) {rest : String}
    (h : rest = "" ∨ rest.startsWith "/" = true) :
    t.origin? base (t.mount ++ rest) = some ([], partsOf rest) := by
  have hdrop : ((t.mount ++ rest).drop t.mount.length).toString = rest := by
    apply String.toList_injective
    have hcopy : ((t.mount ++ rest).drop t.mount.length).toString.toList =
        (t.mount ++ rest).toList.drop t.mount.length := String.toList_copy_drop
    rw [hcopy, String.toList_append, List.drop_left' String.length_toList]
  rw [origin?, if_pos, hdrop]
  rcases h with rfl | h
  · simp
  · rw [String.startsWith_string_iff] at h
    simp only [Bool.or_eq_true, String.startsWith_string_iff, String.toList_append]
    exact Or.inl ((List.prefix_append_right_inj _).2 h)

theorem origin?_relative (ht : t.mount.startsWith "/" = true) {path : String}
    (h : path.startsWith "/" = false) : t.origin? base path = some (base, partsOf path) := by
  have habsolute : ∀ rest, path ≠ t.mount ++ rest := by
    rintro rest rfl
    rw [String.startsWith_string_iff] at ht
    rw [String.startsWith_string_eq_false_iff] at h
    exact h (by simpa using ht.trans (List.prefix_append _ _))
  rw [origin?, if_neg, h, if_neg (by simp)]
  simp only [Bool.or_eq_true, String.startsWith_string_iff, decide_eq_true_eq, not_or]
  constructor
  · rintro ⟨cs, hcs⟩
    refine habsolute ("/" ++ String.ofList cs) (String.toList_injective ?_)
    simpa using hcs.symm
  · rintro rfl
    exact habsolute "" (by simp)

theorem origin?_cases {path : String} (h : t.origin? base path = some (l, parts)) :
    (∃ rest, path = t.mount ++ rest ∧ (rest = "" ∨ rest.startsWith "/" = true) ∧ l = [] ∧
      parts = partsOf rest) ∨ path.startsWith "/" = false ∧ l = base ∧ parts = partsOf path := by
  by_cases habsolute : (path.startsWith (t.mount ++ "/") || decide (path = t.mount)) = true
  · refine Or.inl ?_
    have hrest : ∃ rest, path = t.mount ++ rest ∧ (rest = "" ∨ rest.startsWith "/" = true) := by
      simp only [Bool.or_eq_true, String.startsWith_string_iff, decide_eq_true_eq] at habsolute
      rcases habsolute with ⟨cs, hcs⟩ | hmount
      · refine ⟨"/" ++ String.ofList cs, String.toList_injective ?_, Or.inr ?_⟩
        · simpa using hcs.symm
        · simp
      · exact ⟨"", by simp [hmount], Or.inl rfl⟩
    obtain ⟨rest, rfl, hslash⟩ := hrest
    rw [origin?_mount_append t base hslash] at h
    cases h
    exact ⟨rest, rfl, hslash, rfl, rfl⟩
  · refine Or.inr ?_
    rw [origin?, if_neg habsolute] at h
    cases hslash : path.startsWith "/" with
    | true => simp [hslash] at h
    | false =>
      rw [hslash, if_neg (by simp)] at h
      cases h
      exact ⟨rfl, rfl, rfl⟩

theorem Plain.pieces_join {name : String} (h : Plain name) (a : String) :
    pieces (Path.join a name) = pieces a ++ [name] := by
  rw [h.join_eq]
  split
  · rename_i hend
    rcases Bool.or_eq_true_iff.1 hend with hempty | hend
    · rw [String.isEmpty_iff.1 hempty, String.empty_append, h.pieces_eq]
      rfl
    · exact h.pieces_append hend
  · rw [pieces_append_slash, h.pieces_eq]

theorem Plain.partsOf_join {name : String} (h : Plain name) (a : String) :
    partsOf (Path.join a name) = pieces a ++ [name] := by
  rw [partsOf_eq, h.pieces_join, h.endsWith_join, if_neg (by simp), List.append_nil]

theorem Plain.origin?_eq {name : String} (h : Plain name) (ht : t.mount.startsWith "/" = true)
    (base : Location) : t.origin? base name = some (base, [name]) := by
  have hend : name.endsWith "/" = false := by
    simpa using h.endsWith_append ""
  rw [origin?_relative ht h.startsWith_eq_false, partsOf_eq, h.pieces_eq, hend]
  rfl

theorem startsWith_join {a name : String} (h : Plain name) (ha : a.startsWith "/" = true) :
    (Path.join a name).startsWith "/" = true := by
  rw [String.startsWith_string_iff] at ha ⊢
  rw [h.join_eq]
  split
  · exact ha.trans (by simp)
  · exact ha.trans (by simp)

theorem startsWith_join_eq_false {a name : String} (h : Plain name)
    (ha : a.startsWith "/" = false) : (Path.join a name).startsWith "/" = false := by
  rw [String.startsWith_string_eq_false_iff] at ha ⊢
  have hname : ¬"/".toList <+: name.toList := fun hpre => h.no_slash (hpre.subset (by simp))
  rw [h.join_eq]
  cases hcs : a.toList with
  | nil =>
    rw [String.toList_eq_nil_iff] at hcs
    simpa [hcs] using hname
  | cons c cs =>
    rw [hcs] at ha
    split <;> simpa [hcs] using ha

/-- A name added to a path is one part more, however the path is written. -/
theorem origin?_join (ht : t.WellFormed) {path : String}
    (h : t.origin? base path = some (l, parts)) :
    ∃ ps, (parts = ps ∨ parts = ps ++ ["."]) ∧ ∀ name, Plain name →
      t.origin? base (Path.join path name) = some (l, ps ++ [name]) := by
  have hmount : ¬"/".toList <:+ t.mount.toList := by
    rw [← endsWith_iff, Bool.not_eq_true]
    exact ht.mount_open
  have hempty : t.mount ≠ "" := by
    intro hnil
    have habsolute := ht.mount_absolute
    simp [hnil] at habsolute
  rcases origin?_cases h with ⟨rest, rfl, hrest, rfl, rfl⟩ | ⟨hslash, rfl, rfl⟩
  · refine ⟨pieces rest, partsOf_eq_or rest, fun name hname => ?_⟩
    rcases hrest with rfl | hrest
    · have hjoin : Path.join (t.mount ++ "") name = t.mount ++ ("/" ++ name) := by
        rw [hname.join_eq, if_neg, String.append_empty, String.append_assoc]
        simpa [endsWith_iff, hempty] using hmount
      have hname' : partsOf ("/" ++ name) = pieces "" ++ [name] := by
        have := pieces_append_slash "" name
        rw [partsOf_eq, hname.endsWith_append, if_neg (by simp), List.append_nil, ← hname.pieces_eq,
          ← this, String.empty_append]
      rw [hjoin, origin?_mount_append t _ (Or.inr (by simp)), hname']
    · have hjoin : Path.join (t.mount ++ rest) name = t.mount ++ Path.join rest name := by
        have hne : rest ≠ "" := by
          rintro rfl
          simp at hrest
        have hend : (t.mount ++ rest).endsWith "/" = rest.endsWith "/" := by
          have hlist : rest.toList ≠ [] := by simpa using hne
          rw [Bool.eq_iff_iff, endsWith_iff, endsWith_iff, String.toList_append]
          simp only [String.reduceToList, List.singleton_suffix_iff_getLast?_eq_some,
            List.getLast?_append_of_ne_nil _ hlist]
        have hleft : (t.mount ++ rest).isEmpty = false := by simp [hempty]
        have hright : rest.isEmpty = false := by simp [hne]
        rw [hname.join_eq, hname.join_eq, hend, hleft, hright]
        split <;> simp only [String.append_assoc]
      rw [hjoin, origin?_mount_append t _ (Or.inr (startsWith_join hname hrest)),
        hname.partsOf_join]
  · refine ⟨pieces path, partsOf_eq_or path, fun name hname => ?_⟩
    rw [origin?_relative ht.mount_absolute (startsWith_join_eq_false hname hslash),
      hname.partsOf_join]

/-! ### Steps -/

/-- One part of a path further, whatever is there. -/
def go (l : Location) (part : String) : Location :=
  if part = "." then l else if part = ".." then l.dropLast else l ++ [part]

/-- The locations that parts lead to, one after the other. -/
def passed (l : Location) : List String → List Location
  | [] => []
  | part :: parts => go l part :: passed (go l part) parts

theorem passed_append (l : Location) (parts parts' : List String) :
    passed l (parts ++ parts') = passed l parts ++ passed (parts.foldl go l) parts' := by
  induction parts generalizing l with
  | nil => rfl
  | cons part parts ih => simp [passed, ih]

/-- A way that does not go up only leads further. -/
theorem prefix_foldl_go (h : ".." ∉ parts) (l : Location) : l <+: parts.foldl go l := by
  induction parts generalizing l with
  | nil => exact List.prefix_refl l
  | cons part parts ih =>
    rw [List.mem_cons, not_or] at h
    refine List.IsPrefix.trans ?_ (ih h.2 (go l part))
    rw [go, if_neg (Ne.symm h.1)]
    split
    · exact List.prefix_refl l
    · exact List.prefix_append ..

theorem prefix_of_mem_passed (h : ".." ∉ parts) (hk : k ∈ passed l parts) :
    k <+: parts.foldl go l := by
  induction parts generalizing l with
  | nil => cases hk
  | cons part parts ih =>
    rw [List.mem_cons, not_or] at h
    rcases List.mem_cons.1 hk with rfl | hk
    · exact prefix_foldl_go h.2 _
    · exact ih h.2 hk

theorem Plain.go_eq {name : String} (h : Plain name) (l : Location) : go l name = l ++ [name] := by
  simp [go, h.ne_here, h.ne_up]

theorem step?_eq_some : t.step? l part = some k ↔ t.isDirectory l = true ∧
    isName part = true ∧ (part = ".." → l ≠ []) ∧ k = go l part := by
  simp only [step?, go]
  cases hl : t.isDirectory l <;> cases hpart : isName part <;> simp
  by_cases hhere : part = "."
  · simp only [hhere, if_true, Option.some.injEq, String.reduceEq, false_implies, true_and]
    exact eq_comm
  · by_cases hup : part = ".."
    · cases l with
      | nil => simp [hup]
      | cons head l =>
        simp only [hup, String.reduceEq, if_false, if_true, Option.some.injEq, reduceCtorEq,
          not_false_eq_true, implies_true, true_and]
        exact eq_comm
    · simp only [hhere, hup, if_false, Option.some.injEq, false_implies, true_and]
      exact eq_comm

theorem isDirectory_of_foldlM (h : parts.foldlM t.step? l = some k)
    (hk : t.isDirectory k = true) : t.isDirectory l = true := by
  cases parts with
  | nil =>
    cases h
    exact hk
  | cons part parts =>
    rw [List.foldlM_cons] at h
    obtain ⟨m, hm, -⟩ := Option.bind_eq_some_iff.1 h
    exact (step?_eq_some.1 hm).1

theorem eq_foldl_go (h : parts.foldlM t.step? l = some k) : k = parts.foldl go l := by
  induction parts generalizing l with
  | nil =>
    cases h
    rfl
  | cons part parts ih =>
    rw [List.foldlM_cons] at h
    obtain ⟨m, hm, hrest⟩ := Option.bind_eq_some_iff.1 h
    rw [List.foldl_cons, ← (step?_eq_some.1 hm).2.2.2]
    exact ih hrest

theorem foldlM_step?_mono (h : parts.foldlM t.step? l = some k)
    (hstay : ∀ m ∈ l :: passed l parts, t.isDirectory m = true → u.isDirectory m = true) :
    parts.foldlM u.step? l = some k := by
  induction parts generalizing l with
  | nil => exact h
  | cons part parts ih =>
    rw [List.foldlM_cons] at h ⊢
    obtain ⟨m, hm, hrest⟩ := Option.bind_eq_some_iff.1 h
    obtain ⟨hl, hpart, hup, rfl⟩ := step?_eq_some.1 hm
    refine Option.bind_eq_some_iff.2 ⟨go l part, ?_, ih hrest fun m hm => ?_⟩
    · exact step?_eq_some.2 ⟨hstay l (List.mem_cons_self ..) hl, hpart, hup, rfl⟩
    · exact hstay m (List.mem_cons_of_mem _ hm)

/-! ### Making directories -/

/-- A tree with more directories, all of them at some locations. -/
structure Grown (t u : FileTree) (ls : List Location) : Prop where
  wellFormed : u.WellFormed
  mount : u.mount = t.mount
  seen : ∀ k, u.get? k = t.get? k ∨ t.get? k = none ∧ u.get? k = some .directory ∧ k ∈ ls

theorem Grown.refl (ht : t.WellFormed) (ls : List Location) : Grown t t ls :=
  ⟨ht, rfl, fun _ => Or.inl rfl⟩

theorem Grown.trans {v : FileTree} {ls : List Location} (h : Grown t u ls) (h' : Grown u v ls) :
    Grown t v ls where
  wellFormed := h'.wellFormed
  mount := h'.mount.trans h.mount
  seen k := by
    rcases h.seen k with hk | ⟨hk, hu, hmem⟩
    · rcases h'.seen k with hk' | ⟨hu, hv, hmem⟩
      · exact Or.inl (hk'.trans hk)
      · exact Or.inr ⟨hk ▸ hu, hv, hmem⟩
    · rcases h'.seen k with hk' | ⟨hu', -, -⟩
      · exact Or.inr ⟨hk, hk'.trans hu, hmem⟩
      · rw [hu] at hu'
        cases hu'

theorem Grown.mono {ls ls' : List Location} (h : Grown t u ls) (hsub : ls ⊆ ls') :
    Grown t u ls' := by
  refine ⟨h.wellFormed, h.mount, fun k => ?_⟩
  rcases h.seen k with hk | ⟨hk, hu, hmem⟩
  · exact Or.inl hk
  · exact Or.inr ⟨hk, hu, hsub hmem⟩

theorem Grown.isDirectory {ls : List Location} (h : Grown t u ls) (hk : t.isDirectory k = true) :
    u.isDirectory k = true := by
  rcases h.seen k with heq | ⟨hnone, -, -⟩
  · rwa [FileTree.isDirectory, heq]
  · simp [FileTree.isDirectory, hnone] at hk

theorem Grown.store {ls : List Location} {k : Location} {s : Git.Store} (h : Grown t u ls)
    (hk : u.get? k = some (.store s)) : t.get? k = some (.store s) := by
  rcases h.seen k with heq | ⟨-, hdir, -⟩
  · rwa [← heq]
  · rw [hdir] at hk
    cases hk

theorem Grown.outsideStores {ls : List Location} (h : Grown t u ls) (hl : t.OutsideStores l) :
    u.OutsideStores l :=
  fun k s hk hs => hl k s hk (h.store hs)

theorem grown_put (ht : t.WellFormed) (hl : t.get? l = none) :
    Grown t (t.put l .directory) [l] where
  wellFormed := ht.put hl fun s hs => by cases hs
  mount := rfl
  seen k := by
    rw [get?_put ht hl (by simp)]
    split
    · rename_i hk
      exact Or.inr ⟨hk ▸ hl, rfl, by simp [hk]⟩
    · exact Or.inl rfl

theorem on_createDirectories_cons : on (createDirectories l (part :: parts)) t =
    match t.step? l part with
    | none => (.error .file, t)
    | some m =>
      match t.get? m with
      | none => on (createDirectories m parts) (t.put m .directory)
      | some e => if e.isDirectory then on (createDirectories m parts) t else (.error .file, t) := by
  simp only [createDirectories, on_bind, on_get]
  cases t.step? l part with
  | none => rfl
  | some m =>
    simp only [on_bind, on_get]
    cases t.get? m with
    | none => simp only [on_bind, on_modify]
    | some e =>
      dsimp only
      cases e.isDirectory with
      | true => rfl
      | false => rfl

/-- The first part of a way is refused, or leads to a directory that is there or is made. -/
theorem createDirectories_cons (ht : t.WellFormed) (l : Location) (part : String) :
    (∀ parts, on (createDirectories l (part :: parts)) t = (.error .file, t)) ∨
      ∃ t', Grown t t' [go l part] ∧ t.step? l part = some (go l part) ∧
        t'.isDirectory (go l part) = true ∧ ∀ parts,
          on (createDirectories l (part :: parts)) t = on (createDirectories (go l part) parts) t' := by
  simp only [on_createDirectories_cons]
  cases hstep : t.step? l part with
  | none => exact Or.inl fun _ => rfl
  | some m =>
    obtain ⟨-, -, -, rfl⟩ := step?_eq_some.1 hstep
    dsimp only
    cases hget : t.get? (go l part) with
    | none =>
      refine Or.inr ⟨_, grown_put ht hget, rfl, ?_, fun _ => rfl⟩
      simp [isDirectory, get?_put ht hget, Entry.isDirectory]
    | some e =>
      cases hdir : e.isDirectory with
      | true =>
        refine Or.inr ⟨t, Grown.refl ht _, rfl, ?_, fun _ => by simp [hdir]⟩
        simp [isDirectory, hget, hdir]
      | false => exact Or.inl fun _ => by simp [hdir]

theorem grown_createDirectories {r : Except Fault Location} (ht : t.WellFormed)
    (h : on (createDirectories l parts) t = (r, u)) : Grown t u (passed l parts) := by
  induction parts generalizing l t with
  | nil =>
    rw [createDirectories, on_pure] at h
    cases h
    exact Grown.refl ht _
  | cons part parts ih =>
    rcases createDirectories_cons ht l part with herror | ⟨t', hgrown, -, -, hon⟩
    · rw [herror] at h
      cases h
      exact Grown.refl ht _
    · rw [hon] at h
      have hrest := (ih hgrown.wellFormed h).mono
        (List.subset_cons_of_subset (go l part) (List.Subset.refl _))
      exact (hgrown.mono (by simp [passed])).trans hrest

theorem foldlM_of_createDirectories (ht : t.WellFormed)
    (h : on (createDirectories l parts) t = (.ok k, u)) :
    parts.foldlM u.step? l = some k ∧ (u.isDirectory l = true → u.isDirectory k = true) := by
  induction parts generalizing l t with
  | nil =>
    rw [createDirectories, on_pure] at h
    cases h
    exact ⟨rfl, id⟩
  | cons part parts ih =>
    have hgrown := grown_createDirectories ht h
    rcases createDirectories_cons ht l part with herror | ⟨t', hgrown', hstep, hdir, hon⟩
    · rw [herror] at h
      cases h
    · rw [hon] at h
      obtain ⟨hfold, hlast⟩ := ih hgrown'.wellFormed h
      have hu := (grown_createDirectories hgrown'.wellFormed h).isDirectory hdir
      obtain ⟨hl, hpart, hup, -⟩ := step?_eq_some.1 hstep
      refine ⟨?_, fun _ => hlast hu⟩
      rw [List.foldlM_cons]
      exact Option.bind_eq_some_iff.2
        ⟨go l part, step?_eq_some.2 ⟨hgrown.isDirectory hl, hpart, hup, rfl⟩, hfold⟩

theorem createDirectories_of_foldlM (h : parts.foldlM t.step? l = some k)
    (hk : t.isDirectory k = true) : on (createDirectories l parts) t = (.ok k, t) := by
  induction parts generalizing l with
  | nil =>
    cases h
    rfl
  | cons part parts ih =>
    rw [List.foldlM_cons] at h
    obtain ⟨m, hm, hrest⟩ := Option.bind_eq_some_iff.1 h
    have hdir := isDirectory_of_foldlM hrest hk
    rw [isDirectory, Option.any_eq_true] at hdir
    obtain ⟨e, hget, he⟩ := hdir
    simp only [on_createDirectories_cons, hm, hget, he, if_true]
    exact ih hrest

theorem createDirectories_append (ht : t.WellFormed) (parts' : List String) :
    on (createDirectories l (parts ++ parts')) t =
      on (createDirectories l parts >>= fun k => createDirectories k parts') t := by
  induction parts generalizing l t with
  | nil =>
    rw [createDirectories, pure_bind]
    rfl
  | cons part parts ih =>
    rw [on_bind, List.cons_append]
    rcases createDirectories_cons ht l part with herror | ⟨t', hgrown, -, -, hon⟩
    · rw [herror, herror]
    · rw [hon, hon, ih hgrown.wellFormed, on_bind]

end FileTree

end ReleaseHistory
