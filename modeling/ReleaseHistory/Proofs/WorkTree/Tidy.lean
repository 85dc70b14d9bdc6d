import ReleaseHistory.Proofs.FileTree.Copy
import ReleaseHistory.Proofs.Git.Merge
import ReleaseHistory.Proofs.WorkTree.Repository

/-!
# Tidy directories

A directory is tidy if there is nothing in it but files and its store, and if it is not in a store
itself. In such a directory files can be read and written by their names, all of them can be staged,
and snapshots without directories can be checked out. It stays tidy all along.
-/

namespace ReleaseHistory

open Operation

namespace FileTree

/-- A directory with nothing in it but files and its store. -/
structure Tidy (root : Location) (t : FileTree) : Prop where
  absolute : t.mount.startsWith "/" = true
  directory : root = [] ∨ t.own? root = some .directory
  outside : ∀ k s, (k, .store s) ∈ t.entries → ¬k <+: root
  files : ∀ w e, w ≠ [] → (root ++ w, e) ∈ t.entries →
    w = [storeName] ∨ ∃ name text, w = [name] ∧ e = .text text

variable {root : Location} {t : FileTree} {name text : String}

theorem Tidy.isDirectory (ht : Tidy root t) : t.isDirectory root = true := by
  rw [FileTree.isDirectory]
  cases root with
  | nil => rfl
  | cons part parts =>
    have hne := List.cons_ne_nil part parts
    rw [get?_of_own? hne (ht.directory.resolve_left hne)]
    rfl

theorem Tidy.storeAbove?_eq_none (ht : Tidy root t) (name : String) :
    t.storeAbove? (root ++ [name]) = none := by
  rw [FileTree.storeAbove?_eq_none]
  intro k s part parts hmem heq
  have hbelow : k <+: root ++ [name] := ⟨part :: parts, heq.symm⟩
  have hne : k ≠ root ++ [name] := by
    rintro rfl
    simp at heq
  have hroot := prefix_dropLast hbelow hne
  rw [List.dropLast_concat] at hroot
  exact ht.outside k s hmem hroot

theorem Tidy.get?_eq (ht : Tidy root t) (name : String) :
    t.get? (root ++ [name]) = t.own? (root ++ [name]) := by
  have hne : root ++ [name] ≠ [] := by simp
  cases hown : t.own? (root ++ [name]) with
  | some e => exact get?_of_own? hne hown
  | none => rw [get?_of_own?_eq_none hne hown, ht.storeAbove?_eq_none, Option.bind_none]

theorem Tidy.text_of_own? (ht : Tidy root t) (hname : name ≠ storeName) {e : Entry}
    (h : t.own? (root ++ [name]) = some e) : ∃ text, e = .text text := by
  rcases ht.files [name] e (List.cons_ne_nil name []) (mem_entries_of_own? h) with
    hstore | ⟨-, text, -, rfl⟩
  · exact absurd (List.singleton_inj.1 hstore) hname
  · exact ⟨text, rfl⟩

theorem Tidy.put (ht : Tidy root t) {e : Entry}
    (he : name = storeName ∨ ∃ text, e = .text text) : Tidy root (t.put (root ++ [name]) e) where
  absolute := ht.absolute
  directory := by
    rw [own?_put, if_neg (by simp)]
    exact ht.directory
  outside := by
    intro k s hmem hroot
    rcases List.mem_cons.1 hmem with heq | hmem
    · obtain ⟨rfl, -⟩ := Prod.mk.inj heq
      exact absurd hroot.length_le (by simp)
    · exact ht.outside k s (List.mem_filter.1 hmem).1 hroot
  files := by
    intro w e' hw hmem
    rcases List.mem_cons.1 hmem with heq | hmem
    · obtain ⟨hl, rfl⟩ := Prod.mk.inj heq
      obtain rfl := List.append_cancel_left hl
      rcases he with rfl | ⟨text, rfl⟩
      · exact .inl rfl
      · exact .inr ⟨name, text, rfl, rfl⟩
    · exact ht.files w e' hw (List.mem_filter.1 hmem).1

theorem Tidy.erase (ht : Tidy root t) (name : String) : Tidy root (t.erase (root ++ [name])) where
  absolute := ht.absolute
  directory := by
    have hroot : ¬root ++ [name] <+: root := fun h => absurd h.length_le (by simp)
    rw [own?_erase, if_neg hroot]
    exact ht.directory
  outside := fun k s hmem => ht.outside k s (List.mem_filter.1 hmem).1
  files := fun w e hw hmem => ht.files w e hw (List.mem_filter.1 hmem).1

/-- A directory with nothing in it, outside of stores. -/
structure Empty (root : Location) (t : FileTree) : Prop where
  directory : t.get? root = some .directory
  vacant : t.Vacant root
  outside : t.OutsideStores root

theorem Empty.tidy (h : Empty root t) (ht : t.WellFormed) : Tidy root t where
  absolute := ht.mount_absolute
  directory := by
    by_cases hroot : root = []
    · exact .inl hroot
    · right
      rw [own?_eq_get? ht hroot (h.outside.of_prefix (List.dropLast_prefix root))]
      exact h.directory
  outside := by
    intro k s hmem hk
    have hown := (mem_entries_iff ht.distinct).1 hmem
    exact h.outside k s hk ((own?_eq_store_iff ht.root).1 hown)
  files := by
    intro w e hw hmem
    exact absurd hmem (own?_eq_none.1 (own?_eq_none_of_get? (h.vacant w hw)) e)

/-! ### Reading and writing -/

theorem Tidy.locate?_eq (ht : Tidy root t) (hname : Plain name) :
    t.locate? root name = some (root ++ [name]) := by
  have hstep : t.step? root name = some (root ++ [name]) := by
    rw [step?_eq_some]
    exact ⟨ht.isDirectory, hname.isName, fun hup => absurd hup hname.ne_up, (hname.go_eq root).symm⟩
  rw [locate?, hname.origin?_eq ht.absolute, Option.bind_some]
  show [name].foldlM t.step? root = _
  rw [List.foldlM_cons, hstep]
  rfl

theorem Tidy.exists_readText? (ht : Tidy root t) (hname : Plain name) (hstore : name ≠ storeName) :
    ∃ found, on (readText? root name) t = (.ok found, t) := by
  rw [on_readText?, find?, ht.locate?_eq hname, Option.bind_some, ht.get?_eq]
  cases hown : t.own? (root ++ [name]) with
  | none => exact ⟨none, rfl⟩
  | some e =>
    obtain ⟨text, rfl⟩ := ht.text_of_own? hstore hown
    exact ⟨some text, rfl⟩

theorem Tidy.on_writeText (ht : Tidy root t) (hname : Plain name) (hstore : name ≠ storeName)
    (text : String) :
    on (writeText root name text) t = (.ok (), t.put (root ++ [name]) (.text text)) := by
  have hfile : t.isDirectory (root ++ [name]) = false := by
    rw [FileTree.isDirectory, ht.get?_eq]
    cases hown : t.own? (root ++ [name]) with
    | none => rfl
    | some e =>
      obtain ⟨old, rfl⟩ := ht.text_of_own? hstore hown
      rfl
  have hnull : name.toList.contains '\x00' = false := by simpa using hname.no_null
  have hparts : (([name] : List String).filter (· ≠ ".")).dropLast = [] := by
    rw [List.filter_cons_of_pos (by simpa using hname.ne_here)]
    rfl
  have hwrite : on (writeHere root name text) t = (.ok (), t.put (root ++ [name]) (.text text)) := by
    simp only [writeHere, on_bind, on_get, ht.locate?_eq hname, hfile, putText,
      ht.storeAbove?_eq_none]
    rfl
  simp only [writeText, on_bind, on_get, hname.origin?_eq ht.absolute, hnull, hparts]
  exact hwrite

end FileTree

namespace Repository

open Git
open FileTree (Tidy)

variable {root : Location} {t : FileTree} {path : String}

/-! ### Checking out -/

theorem splitOn_flat (h : '/' ∉ path.toList) : Text.splitOn '/' path = [path] := by
  rw [Text.splitOn, Text.splitAll_of_not_mem h]
  simp

theorem tidy_removeFile (ht : Tidy root t) (hpath : '/' ∉ path.toList) :
    Tidy root (removeFile root path t) := by
  rw [removeFile, splitOn_flat hpath]
  split
  · exact ht.erase path
  · exact ht

theorem tidy_writeFile (ht : Tidy root t) (hpath : '/' ∉ path.toList) (text : String) :
    Tidy root (writeFile root t path text) := by
  rw [writeFile, splitOn_flat hpath]
  exact (ht.erase path).put (.inr ⟨text, rfl⟩)

theorem tidy_foldl {α : Type} {f : FileTree → α → FileTree} {as : List α}
    (hf : ∀ a ∈ as, ∀ t, Tidy root t → Tidy root (f t a)) (ht : Tidy root t) :
    Tidy root (as.foldl f t) := by
  induction as generalizing t with
  | nil => exact ht
  | cons a as ih =>
    obtain ⟨ha, has⟩ := List.forall_mem_cons.1 hf
    exact ih has (ha t ht)

theorem tidy_replaceFiles {before after : Snapshot} (hbefore : before.Flat) (hafter : after.Flat)
    (ht : Tidy root t) : Tidy root (replaceFiles root before after t) := by
  rw [replaceFiles_eq]
  apply tidy_foldl fun e he t ht => tidy_writeFile ht (hafter e he) e.2
  exact tidy_foldl (fun e he t ht => tidy_removeFile ht (hbefore e (List.mem_filter.1 he).1)) ht

/-! ### Staging -/

theorem exists_stagedFiles {r : Repository} (ht : Tidy r.root r.files) (hnames : r.files.Slashless)
    (s : Store) : ∃ index, r.stagedFiles s = some index ∧ index.Flat := by
  have hfiles : ∀ n ∈ r.files.names (r.root ++ []), isStoreName n = false →
      ∃ text, r.files.get? (r.root ++ ([] ++ [n])) = some (.text text) := by
    intro n hn hno
    rw [List.append_nil] at hn
    have hstore : n ≠ FileTree.storeName := by
      rintro rfl
      exact absurd hno (by decide)
    obtain ⟨e, he⟩ := mem_names hn
    rw [List.nil_append, ht.get?_eq]
    cases hown : r.files.own? (r.root ++ [n]) with
    | none => exact absurd he (FileTree.own?_eq_none.1 hown e)
    | some e' =>
      obtain ⟨text, rfl⟩ := ht.text_of_own? hstore hown
      exact ⟨text, rfl⟩
  obtain ⟨files, hstaged, hpaths⟩ := staged_of_files hfiles
  refine ⟨Snapshot.ofList files, ?_, ?_⟩
  · rw [Repository.stagedFiles, hstaged]
    rfl
  · intro entry hentry
    obtain ⟨n, hn, -, hpath⟩ := hpaths entry (Snapshot.mem_ofList hentry)
    rw [List.append_nil] at hn
    have hnamed := named_of_names hnames hn
    rw [hpath]
    exact hnamed n (List.mem_singleton.2 rfl)

end Repository

end ReleaseHistory
