import ReleaseHistory.Proofs.FileTree.Copy
import ReleaseHistory.Proofs.Git.Merge
import ReleaseHistory.WorkTree.Repository

/-!
# The store among the files

Names of files have no slash, so that a path that was staged leads back to the file that it was made
of. No staged path begins in the store, and checking out touches only what its paths lead to: the
store stays as it is. Writing a file elsewhere leaves the store as it is, too.
-/

namespace ReleaseHistory

open Operation

namespace FileTree

variable {t u : FileTree} {base l k root : Location} {e : Entry} {path text : String}

/-! ### Names without slashes -/

/-- A location whose names have no slash in them. -/
def Named (l : Location) : Prop := ∀ part ∈ l, '/' ∉ part.toList

instance (l : Location) : Decidable (Named l) :=
  inferInstanceAs (Decidable (∀ part ∈ l, '/' ∉ part.toList))

/-- A tree all of whose names have no slash in them. -/
def Slashless (t : FileTree) : Prop := ∀ entry ∈ t.entries, Named entry.1

theorem named_nil : Named [] := fun _ hpart => nomatch hpart

theorem slashless_new (mount : String) : (FileTree.new mount).Slashless :=
  fun _ hentry => nomatch hentry

theorem named_append : Named (k ++ l) ↔ Named k ∧ Named l := by
  simp only [Named, List.mem_append, or_imp, forall_and]

theorem Named.dropLast (hl : Named l) : Named l.dropLast :=
  fun part hpart => hl part (List.dropLast_subset l hpart)

theorem Slashless.put (ht : t.Slashless) (hl : Named l) : (t.put l e).Slashless := by
  intro entry hentry
  rcases List.mem_cons.1 hentry with rfl | hentry
  · exact hl
  · exact ht entry (List.mem_filter.1 hentry).1

theorem Slashless.erase (ht : t.Slashless) (l : Location) : (t.erase l).Slashless :=
  fun entry hentry => ht entry (List.mem_filter.1 hentry).1

theorem Slashless.named (ht : t.Slashless) (hown : t.own? l = some e) : Named l :=
  ht _ (mem_entries_of_own? hown)

theorem named_splitOn (path : String) : Named (Text.splitOn '/' path) :=
  fun _ hpart => Text.not_mem_of_mem_splitOn hpart

theorem named_partsOf (path : String) : Named (partsOf path) := by
  rw [partsOf, named_append]
  constructor
  · intro part hpart
    exact named_splitOn path part (List.mem_filter.1 hpart).1
  · intro part hpart
    split at hpart
    · rw [List.mem_singleton.1 hpart]
      decide
    · cases hpart

theorem named_go (hl : Named l) {part : String} (hpart : '/' ∉ part.toList) :
    Named (go l part) := by
  unfold go
  split_ifs
  · exact hl
  · exact hl.dropLast
  · rw [named_append]
    exact ⟨hl, fun name hname => by rwa [List.mem_singleton.1 hname]⟩

theorem named_foldl_go (hl : Named l) {parts : List String} (hparts : Named parts) :
    Named (parts.foldl go l) := by
  induction parts generalizing l with
  | nil => exact hl
  | cons part parts ih =>
    exact ih (named_go hl (hparts part (List.mem_cons_self ..)))
      fun name hname => hparts name (List.mem_cons_of_mem part hname)

theorem named_origin? {parts : List String} (hbase : Named base)
    (h : t.origin? base path = some (l, parts)) : Named l ∧ Named parts := by
  rcases origin?_cases h with ⟨rest, -, -, rfl, rfl⟩ | ⟨-, rfl, rfl⟩
  · exact ⟨fun part hpart => (nomatch hpart), named_partsOf rest⟩
  · exact ⟨hbase, named_partsOf path⟩

/-! ### Writing elsewhere -/

/-- A tree at a place of the disk that keeps an entry at a location and has names without slashes. -/
structure Holding (k : Location) (e : Entry) (mount : String) (t : FileTree) : Prop where
  own : t.own? k = some e
  slashless : t.Slashless
  mount_eq : t.mount = mount

variable {mount : String}

theorem Holding.put (h : Holding k e mount t) {e' : Entry} (hl : Named l) (hne : k ≠ l) :
    Holding k e mount (t.put l e') where
  own := by rw [own?_put, if_neg hne, h.own]
  slashless := h.slashless.put hl
  mount_eq := h.mount_eq

theorem Holding.erase (h : Holding k e mount t) (hl : ¬l <+: k) : Holding k e mount (t.erase l) where
  own := by rw [own?_erase, if_neg hl, h.own]
  slashless := h.slashless.erase l
  mount_eq := h.mount_eq

theorem createDirectories_keeps {P : FileTree → Prop} {r : Except Fault Location}
    {parts : List String}
    (hput : ∀ t m, P t → Named m → t.get? m = none → P (t.put m .directory))
    (ht : P t) (hl : Named l) (hparts : Named parts)
    (h : on (createDirectories l parts) t = (r, u)) : P u ∧ ∀ m, r = .ok m → Named m := by
  induction parts generalizing l t with
  | nil =>
    rw [FileTree.createDirectories, on_pure] at h
    cases h
    refine ⟨ht, fun m hm => ?_⟩
    cases hm
    exact hl
  | cons part parts ih =>
    rw [on_createDirectories_cons] at h
    have hrest : Named parts := fun name hname => hparts name (List.mem_cons_of_mem part hname)
    cases hstep : t.step? l part with
    | none =>
      rw [hstep] at h
      cases h
      exact ⟨ht, fun m hm => absurd hm (by simp)⟩
    | some m =>
      have hm : Named m := by
        rw [(step?_eq_some.1 hstep).2.2.2]
        exact named_go hl (hparts part (List.mem_cons_self ..))
      rw [hstep] at h
      dsimp only at h
      cases hget : t.get? m with
      | none =>
        rw [hget] at h
        exact ih (hput t m ht hm hget) hm hrest h
      | some found =>
        rw [hget] at h
        dsimp only at h
        split at h
        · exact ih ht hm hrest h
        · cases h
          exact ⟨ht, fun m hm => absurd hm (by simp)⟩

theorem Holding.createDirectories {r : Except Fault Location} {parts : List String}
    (ht : Holding k e mount t) (hl : Named l) (hparts : Named parts)
    (h : on (createDirectories l parts) t = (r, u)) : Holding k e mount u := by
  have hput : ∀ t m, Holding k e mount t → Named m → t.get? m = none →
      Holding k e mount (t.put m .directory) := by
    intro t m ht hm hget
    apply ht.put hm
    intro heq
    have hnone := own?_eq_none_of_get? hget
    rw [← heq, ht.own] at hnone
    cases hnone
  exact (createDirectories_keeps hput ht hl hparts h).1

theorem named_createDirectory (ht : t.Slashless) (hbase : Named base)
    (h : on (createDirectory base path) t = (.ok k, u)) : u.Slashless ∧ Named k := by
  obtain ⟨-, l, parts, horigin, hon⟩ := createDirectory_eq_ok h
  obtain ⟨hl, hparts⟩ := named_origin? hbase horigin
  have hput : ∀ t m, Slashless t → Named m → t.get? m = none → Slashless (t.put m .directory) :=
    fun t m ht hm _ => ht.put hm
  obtain ⟨hu, hk⟩ := createDirectories_keeps hput ht hl hparts hon
  exact ⟨hu, hk k rfl⟩

/-- Where a path leads if all its parts lead on. -/
def destination? (t : FileTree) (base : Location) (path : String) : Option Location :=
  (t.origin? base path).map fun (l, parts) => parts.foldl go l

theorem destination?_congr (h : u.mount = t.mount) :
    u.destination? base path = t.destination? base path := by
  rw [destination?, destination?, origin?_congr h]

theorem destination?_of_locate? (h : t.locate? base path = some l) :
    t.destination? base path = some l := by
  obtain ⟨⟨m, parts⟩, horigin, hfold⟩ := Option.bind_eq_some_iff.1 h
  rw [destination?, horigin, eq_foldl_go hfold]
  rfl

theorem named_destination? (hbase : Named base) (h : t.destination? base path = some l) :
    Named l := by
  obtain ⟨⟨m, parts⟩, horigin, rfl⟩ := Option.map_eq_some_iff.1 h
  obtain ⟨hm, hparts⟩ := named_origin? hbase horigin
  exact named_foldl_go hm hparts

theorem exists_of_storeAbove? {s : Git.Store} (h : t.storeAbove? l = some (k, s, path)) :
    (k, Entry.store s) ∈ t.entries ∧ k <+: l := by
  obtain ⟨⟨k', e⟩, hmem, heq⟩ := List.exists_of_findSome?_eq_some h
  dsimp only at heq
  split at heq
  · rename_i part parts hbelow
    cases heq
    exact ⟨hmem, ⟨part :: parts, (below?_eq_some.1 hbelow).symm⟩⟩
  · cases heq

/-- A text that is put neither at a location nor below it leaves what is kept there. -/
theorem Holding.putText (ht : Holding k e mount t) (hl : Named l) (houtside : ¬k <+: l) :
    Holding k e mount (t.putText l text) := by
  have hne : k ≠ l := by
    rintro rfl
    exact houtside (List.prefix_refl k)
  unfold FileTree.putText
  split
  · rename_i m s path habove
    obtain ⟨hmem, hbegins⟩ := exists_of_storeAbove? habove
    split
    · apply ht.put (ht.slashless _ hmem)
      rintro rfl
      exact houtside hbegins
    · exact ht.put hl hne
  · exact ht.put hl hne

/-- Writing a file leaves what is kept at a location that its path does not lead into. -/
theorem Holding.writeText {r : Except Fault Unit} (ht : Holding k e mount t) (hbase : Named base)
    (houtside : ∀ l, t.destination? base path = some l → ¬k <+: l)
    (h : on (writeText base path text) t = (r, u)) : Holding k e mount u := by
  simp only [FileTree.writeText, on_bind, on_get] at h
  cases horigin : t.origin? base path with
  | none =>
    rw [horigin] at h
    cases h
    exact ht
  | some found =>
    obtain ⟨m, parts⟩ := found
    obtain ⟨hm, hparts⟩ := named_origin? hbase horigin
    rw [horigin] at h
    dsimp only at h
    split at h
    · cases h
      exact ht
    · have hleading : Named (parts.filter (· ≠ ".")).dropLast := fun part hpart =>
        hparts part (List.mem_filter.1 (List.dropLast_subset _ hpart)).1
      rcases hon : on (FileTree.createDirectories m (parts.filter (· ≠ ".")).dropLast) t with ⟨r', v⟩
      have hv := ht.createDirectories hm hleading hon
      simp only [on_bind, hon] at h
      cases r' with
      | error fault =>
        cases h
        exact hv
      | ok _ =>
        simp only [writeHere, on_bind, on_get] at h
        cases hlocate : v.locate? base path with
        | none =>
          rw [hlocate] at h
          cases h
          exact hv
        | some l =>
          rw [hlocate] at h
          dsimp only at h
          split at h
          · cases h
            exact hv
          · cases h
            have hl := destination?_of_locate? hlocate
            rw [destination?_congr (hv.mount_eq.trans ht.mount_eq.symm)] at hl
            exact hv.putText (named_destination? hbase hl) (houtside l hl)

end FileTree

/-! ### Checking out -/

namespace Repository

open FileTree (Named Holding Slashless own?_eq_none_of_get?)

variable {t : FileTree} {root way : Location} {s : Git.Store} {e : Entry} {path text mount : String}

theorem storeLocation_ne_nil (root : Location) : storeLocation root ≠ [] := by
  simp [storeLocation]

theorem storeAt?_eq_some :
    storeAt? t root = some s ↔ t.own? (storeLocation root) = some (.store s) := by
  have hne := storeLocation_ne_nil root
  rw [storeAt?]
  cases hown : t.own? (storeLocation root) with
  | none =>
    rw [FileTree.get?_of_own?_eq_none hne hown]
    split
    · rename_i heq
      simp [Option.bind_eq_some_iff] at heq
    · simp
  | some e =>
    rw [FileTree.get?_of_own? hne hown]
    cases e <;> simp

/-- A snapshot none of whose paths goes through a store. -/
abbrev Outside (snapshot : Git.Snapshot) : Prop := snapshot.Without FileTree.storeName

theorem Outside.head?_ne {snapshot : Git.Snapshot} (h : Outside snapshot)
    {entry : String × String} (hentry : entry ∈ snapshot) :
    (Text.splitOn '/' entry.1).head? ≠ some FileTree.storeName := by
  intro hhead
  exact h entry hentry (List.mem_of_head? hhead)

/-- A way from the root that does not begin in the store is not on the way to the store. -/
theorem not_prefix_storeLocation (hne : way ≠ []) (hhead : way.head? ≠ some FileTree.storeName) :
    ¬root ++ way <+: storeLocation root := by
  intro hbegins
  rw [storeLocation, List.prefix_append_right_inj] at hbegins
  cases way with
  | nil => exact hne rfl
  | cons part way =>
    have hpart := (List.cons_prefix_cons.1 hbegins).1
    exact hhead (by rw [List.head?_cons, hpart])

/-- The store is kept, with anything in it, by a change to the files. -/
abbrev Spares (root : Location) (f : FileTree → FileTree) : Prop :=
  ∀ {e mount t}, Holding (storeLocation root) e mount t → Holding (storeLocation root) e mount (f t)

theorem spares_prune (root : Location) {parts : Location}
    (hhead : parts.getLast? ≠ some FileTree.storeName) : Spares root (prune root parts) := by
  induction parts with
  | nil => exact fun ht => ht
  | cons part parts ih =>
    intro e mount t ht
    have hway : ¬root ++ (part :: parts).reverse <+: storeLocation root :=
      not_prefix_storeLocation (by simp) (by rwa [List.head?_reverse])
    have hrest : parts.getLast? ≠ some FileTree.storeName := by
      cases parts with
      | nil => simp
      | cons next parts => rwa [List.getLast?_cons_cons] at hhead
    unfold prune
    dsimp only
    split
    · exact ih hrest (ht.erase hway)
    · exact ht

theorem head?_dropLast_ne {part : String} (h : way.head? ≠ some part) :
    way.dropLast.head? ≠ some part := by
  match way with
  | [] => simp
  | [_] => simp
  | _ :: _ :: _ => exact h

theorem spares_removeFile (root : Location)
    (hpath : (Text.splitOn '/' path).head? ≠ some FileTree.storeName) :
    Spares root (removeFile root path) := by
  intro e mount t ht
  have hway : ¬root ++ Text.splitOn '/' path <+: storeLocation root :=
    not_prefix_storeLocation (Text.splitOn_ne_nil '/' path) hpath
  unfold removeFile
  dsimp only
  split
  · apply spares_prune root _ (ht.erase hway)
    rw [List.drop_one, List.tail_reverse, List.getLast?_reverse]
    exact head?_dropLast_ne hpath
  · exact ht

theorem spares_put (hroot : Named root) (hway : Named way) (hne : way ≠ [])
    (hhead : way.head? ≠ some FileTree.storeName) (e' : Entry) :
    Spares root fun t => (t.erase (root ++ way)).put (root ++ way) e' := by
  intro e mount t ht
  have hnot : ¬root ++ way <+: storeLocation root := not_prefix_storeLocation hne hhead
  apply (ht.erase hnot).put (FileTree.named_append.2 ⟨hroot, hway⟩)
  intro heq
  exact hnot ⟨[], by rw [List.append_nil, heq]⟩

theorem spares_makeDirectories (hroot : Named root) {parts : Location} (hway : Named (way ++ parts))
    (hhead : (way ++ parts).head? ≠ some FileTree.storeName) :
    Spares root fun t => makeDirectories root t way parts := by
  induction parts generalizing way with
  | nil => exact fun ht => ht
  | cons part parts ih =>
    intro e mount t ht
    have hmoved : way ++ part :: parts = (way ++ [part]) ++ parts := by simp
    rw [hmoved] at hway hhead
    have hnamed : Named (way ++ [part]) := (FileTree.named_append.1 hway).1
    have hfirst : (way ++ [part]).head? ≠ some FileTree.storeName := by
      rwa [List.head?_append_of_ne_nil _ (by simp)] at hhead
    show Holding _ e mount (makeDirectories root t way (part :: parts))
    rw [makeDirectories]
    apply ih hway hhead
    split
    · exact ht
    · exact spares_put hroot hnamed (by simp) hfirst .directory ht

theorem spares_writeFile (hroot : Named root)
    (hpath : (Text.splitOn '/' path).head? ≠ some FileTree.storeName) :
    Spares root fun t => writeFile root t path text := by
  intro e mount t ht
  have hnamed := FileTree.named_splitOn path
  apply spares_put hroot hnamed (Text.splitOn_ne_nil '/' path) hpath
  exact spares_makeDirectories hroot hnamed.dropLast (head?_dropLast_ne hpath) ht

theorem spares_foldl {α : Type} {f : FileTree → α → FileTree} {as : List α}
    (h : ∀ a ∈ as, Spares root fun t => f t a) : Spares root fun t => as.foldl f t := by
  induction as with
  | nil => exact fun ht => ht
  | cons a as ih =>
    intro e mount t ht
    exact ih (fun b hb => h b (List.mem_cons_of_mem a hb)) (h a (List.mem_cons_self ..) ht)

theorem replaceFiles_eq (root : Location) (before after : Git.Snapshot) (t : FileTree) :
    replaceFiles root before after t = after.foldl (fun t e => writeFile root t e.1 e.2)
      ((before.filter fun e => (after.get? e.1).isNone).foldl (fun t e => removeFile root e.1 t) t) :=
  rfl

theorem spares_replaceFiles (hroot : Named root) {before after : Git.Snapshot}
    (hbefore : Outside before) (hafter : Outside after) :
    Spares root (replaceFiles root before after) := by
  intro e mount t ht
  rw [replaceFiles_eq]
  apply spares_foldl fun entry hentry => spares_writeFile hroot (hafter.head?_ne hentry)
  exact spares_foldl (fun entry hentry =>
    spares_removeFile root (hbefore.head?_ne (List.mem_filter.1 hentry).1)) ht

end Repository

end ReleaseHistory
