import ReleaseHistory.Proofs.Git.Coherent
import ReleaseHistory.Proofs.WorkTree.Included

/-!
# Files of a snapshot

After a snapshot is checked out each of its files lies where its path leads, whatever was in the place
before: directories are made for it, and no other file of the snapshot is in its way. And what is
staged lies where it was staged from, so that its paths do not stand in each other's way either.
-/

namespace ReleaseHistory

namespace FileTree

variable {t : FileTree} {root way k l : Location} {text : String}

theorem isDirectory_erase (h : t.isDirectory k = true) (hout : ¬l <+: k) :
    (t.erase l).isDirectory k = true := by
  rw [isDirectory_iff] at h ⊢
  rwa [own?_erase, if_neg hout]

/-- What is put neither at a file nor on the way to it leaves it where it lies. -/
theorem Lies.put (h : Lies t root way text) (hout : ¬k <+: way) (e : Entry) :
    Lies (t.put (root ++ k) e) root way text where
  own := by
    rw [own?_put, if_neg, h.own]
    intro heq
    exact hout ⟨[], by rw [List.append_nil, List.append_cancel_left heq]⟩
  inside := by
    intro k' hk hnil hway
    refine isDirectory_put (h.inside k' hk hnil hway) fun heq => ?_
    rw [List.append_cancel_left heq] at hk
    exact absurd hk hout

theorem Lies.erase (h : Lies t root way text) (hout : ¬k <+: way) :
    Lies (t.erase (root ++ k)) root way text where
  own := by rw [own?_erase, if_neg (by rwa [List.prefix_append_right_inj]), h.own]
  inside := by
    intro k' hk hnil hway
    apply isDirectory_erase (h.inside k' hk hnil hway)
    rw [List.prefix_append_right_inj]
    exact fun hkk => hout (hkk.trans hk)

theorem lies_name {name : String} (hown : t.own? (root ++ [name]) = some (.text text)) :
    Lies t root [name] text where
  own := hown
  inside := by
    intro k hk hnil hway
    rcases List.prefix_concat_iff.1 (show k <+: [] ++ [name] from hk) with heq | hk
    · exact absurd heq hway
    · exact absurd (List.prefix_nil.1 hk) hnil

theorem Lies.apart {way' : Location} {text' : String} (h : Lies t root way text)
    (h' : Lies t root way' text') (hne : way ≠ []) (hbegins : way <+: way') : way = way' := by
  by_contra hdiff
  have hdirectory := h'.inside way hbegins hne hdiff
  rw [isDirectory, get?_of_own? (by simp [hne]) h.own] at hdirectory
  cases hdirectory

theorem Lies.cons {n : String} (hdirectory : t.isDirectory (root ++ [n]) = true)
    (h : Lies t (root ++ [n]) way text) : Lies t root (n :: way) text where
  own := by
    have hown := h.own
    rwa [List.append_assoc] at hown
  inside := by
    intro k hk hnil hway
    obtain ⟨m, k, rfl⟩ := List.exists_cons_of_ne_nil hnil
    obtain ⟨rfl, hbegins⟩ := List.cons_prefix_cons.1 hk
    by_cases hempty : k = []
    · rwa [hempty]
    · have hinside := h.inside k hbegins hempty fun heq => hway (by rw [heq])
      rwa [List.append_assoc] at hinside

end FileTree

namespace Repository

open Git
open FileTree (Lies Slashless)

variable {t : FileTree} {root way parts : Location} {path text : String} {snapshot : Snapshot}

/-! ### Checking out -/

/-- The files of a snapshot lie where their paths lead. -/
def Shows (t : FileTree) (root : Location) (snapshot : Snapshot) : Prop :=
  ∀ entry ∈ snapshot, Lies t root (Text.splitOn '/' entry.1) entry.2

theorem isDirectory_makeDirectories {k : Location} (hk : k <+: way ++ parts)
    (ht : k <+: way → t.isDirectory (root ++ k) = true) :
    (makeDirectories root t way parts).isDirectory (root ++ k) = true := by
  induction parts generalizing t way with
  | nil =>
    rw [List.append_nil] at hk
    exact ht hk
  | cons part parts ih =>
    rw [makeDirectories]
    apply ih
    · rwa [List.append_assoc, List.singleton_append]
    · intro hbegins
      rcases List.prefix_concat_iff.1 hbegins with rfl | hbefore
      · split
        · assumption
        · rw [FileTree.isDirectory_iff, FileTree.own?_put, if_pos rfl]
          exact .inr ⟨_, rfl, rfl⟩
      · have hkept := ht hbefore
        have hout : ¬root ++ (way ++ [part]) <+: root ++ k := by
          rw [List.prefix_append_right_inj]
          intro hlong
          have hlength := hlong.length_le.trans hbefore.length_le
          simp at hlength
        split
        · exact hkept
        · exact FileTree.isDirectory_put (FileTree.isDirectory_erase hkept hout) fun _ => rfl

theorem lies_makeDirectories (h : Lies t root way text) {before : Location}
    (hout : ¬way <+: before ++ parts) : Lies (makeDirectories root t before parts) root way text := by
  induction parts generalizing t before with
  | nil => exact h
  | cons part parts ih =>
    rw [makeDirectories]
    apply ih
    · split
      · exact h
      · rename_i hno
        have haway : ¬before ++ [part] <+: way := by
          intro hbegins
          refine hno (h.inside _ hbegins (by simp) ?_)
          rintro rfl
          exact hout ⟨parts, by simp⟩
        exact (h.erase haway).put haway _
    · rwa [List.append_assoc, List.singleton_append]

theorem lies_writeFile (t : FileTree) (root : Location) (path text : String) :
    Lies (writeFile root t path text) root (Text.splitOn '/' path) text where
  own := FileTree.own?_put.trans (if_pos rfl)
  inside := by
    intro k hk hnil hway
    have hbefore : k <+: (Text.splitOn '/' path).dropLast := FileTree.prefix_dropLast hk hway
    have hmade : (makeDirectories root t [] (Text.splitOn '/' path).dropLast).isDirectory (root ++ k) =
        true := isDirectory_makeDirectories hbefore fun hempty => absurd (List.prefix_nil.1 hempty) hnil
    have hout : ¬root ++ Text.splitOn '/' path <+: root ++ k := by
      rw [List.prefix_append_right_inj]
      exact fun hlong => hway (hk.eq_of_length_le hlong.length_le)
    refine FileTree.isDirectory_put (FileTree.isDirectory_erase hmade hout) fun heq => ?_
    exact absurd (List.append_cancel_left heq) hway

theorem lies_writeFile_of_apart (h : Lies t root way text) {other : String}
    (hbehind : ¬way <+: Text.splitOn '/' path) (hbefore : ¬Text.splitOn '/' path <+: way) :
    Lies (writeFile root t path other) root way text := by
  have hmade : Lies (makeDirectories root t [] (Text.splitOn '/' path).dropLast) root way text :=
    lies_makeDirectories h fun hbegins => hbehind (hbegins.trans (List.dropLast_prefix _))
  exact (hmade.erase hbefore).put hbefore _

theorem shows_foldl_writeFile (h : snapshot.Coherent) (t : FileTree) (root : Location) :
    Shows (snapshot.foldl (fun t e => writeFile root t e.1 e.2) t) root snapshot := by
  induction snapshot generalizing t with
  | nil => exact fun _ hentry => nomatch hentry
  | cons first rest ih =>
    intro entry hentry
    rcases List.mem_cons.1 hentry with rfl | hentry
    · refine List.foldlRecOn (motive := fun u => Lies u root (Text.splitOn '/' entry.1) entry.2) rest _
        (lies_writeFile t root entry.1 entry.2) fun u hu f hf => ?_
      obtain ⟨hbehind, hbefore⟩ := h.head_apart f hf
      exact lies_writeFile_of_apart hu hbehind hbefore
    · exact ih h.tail _ entry hentry

theorem shows_replaceFiles (h : snapshot.Coherent) (before : Snapshot) (t : FileTree)
    (root : Location) : Shows (replaceFiles root before snapshot t) root snapshot := by
  rw [replaceFiles_eq]
  exact shows_foldl_writeFile h _ root

theorem Outside.not_begins {entry : String × String} (h : Outside snapshot) (hentry : entry ∈ snapshot) :
    ¬[FileTree.storeName] <+: Text.splitOn '/' entry.1 :=
  fun hbegins => h entry hentry (hbegins.subset (List.mem_singleton_self _))

theorem Shows.withStore {r : Repository} (h : Shows r.files r.root snapshot) (hout : Outside snapshot)
    (s : Store) : Shows (r.withStore s).files r.root snapshot :=
  fun entry hentry => (h entry hentry).put (hout.not_begins hentry) (.store s)

theorem shows_showing {s : Store} (h : snapshot.Coherent) (hout : Outside snapshot) (r : Repository) :
    Shows (r.showing s snapshot).files r.root snapshot := by
  have hshows := shows_replaceFiles h (s.headSnapshot ++ s.index) r.files r.root
  exact Shows.withStore (r := ⟨_, r.root, r.identity⟩) hshows hout _

/-! ### Staging -/

variable {index files : Snapshot} {depth : Nat} {rules : List (List IgnoreRule)} {ignored : Bool}

theorem lies_of_staged (ht : t.Slashless)
    (h : staged t root index depth rules ignored way = some files) {entry : String × String}
    (hentry : entry ∈ files) :
    ∃ rest, Leads way rest entry.1 ∧ Lies t (root ++ way) rest entry.2 := by
  induction depth generalizing rules ignored way files with
  | zero =>
    cases h
    cases hentry
  | succ depth ih =>
    rw [staged_succ] at h
    obtain ⟨parts, hparts, rfl⟩ := Option.map_eq_some_iff.1 h
    obtain ⟨part, hpart, hmem⟩ := List.mem_flatten.1 hentry
    obtain ⟨n, hn, hone⟩ := mem_of_mapM hparts hpart
    obtain ⟨hname, hstore⟩ := List.mem_filter.1 hn
    have hnamed := named_of_names ht hname
    have hstore' : isStoreName n = false := by simpa using hstore
    -- what is listed in a directory has an entry of its own
    obtain ⟨e, he⟩ : ∃ e, t.own? (root ++ way ++ [n]) = some e := by
      obtain ⟨e, he⟩ := mem_names hname
      rw [← Option.ne_none_iff_exists', Ne, FileTree.own?_eq_none]
      exact fun hnone => hnone e he
    have hget : t.get? (root ++ (way ++ [n])) = some e := by
      rw [← List.append_assoc]
      exact FileTree.get?_of_own? (by simp) he
    by_cases htext : ∃ text, e = .text text
    · obtain ⟨text, rfl⟩ := htext
      rw [stagedName_of_text hget] at hone
      cases hone
      obtain ⟨-, hsame⟩ := List.mem_ite_nil_right.1 hmem
      rw [List.mem_singleton.1 hsame]
      refine ⟨[n], ⟨rfl, List.cons_ne_nil n [], hnamed, ?_⟩, FileTree.lies_name he⟩
      intro m hm
      rwa [List.mem_singleton.1 hm]
    · have hnot : ∀ text, t.get? (root ++ (way ++ [n])) ≠ some (.text text) := by
        intro text hsome
        rw [hget] at hsome
        exact htext ⟨text, Option.some.inj hsome⟩
      have hdirectory : t.isDirectory (root ++ way ++ [n]) = true := by
        rw [FileTree.isDirectory_iff]
        refine .inr ⟨e, he, ?_⟩
        cases e with
        | text text => exact absurd ⟨text, rfl⟩ htext
        | _ => rfl
      rw [stagedName_of_not_text hnot] at hone
      split_ifs at hone
      · obtain ⟨rest, hrest, hlies⟩ := ih hone hmem
        rw [← List.append_assoc] at hlies
        exact ⟨n :: rest, hrest.cons hnamed hstore', hlies.cons hdirectory⟩
      · cases hone
        cases hmem

theorem shows_stagedFiles {r : Repository} {s : Store} (hslashless : r.files.Slashless)
    (h : r.stagedFiles s = some index) : Shows r.files r.root index := by
  intro entry hentry
  obtain ⟨files, hfiles, rfl⟩ := Option.map_eq_some_iff.1 h
  obtain ⟨rest, hleads, hlies⟩ := lies_of_staged hslashless hfiles (Snapshot.mem_ofList hentry)
  rw [List.append_nil] at hlies
  rwa [hleads.path_eq, List.nil_append, splitOn_pathOf hleads.ne_nil hleads.named]

/-- What is staged can stand in a directory, since it stands in one. -/
theorem coherent_stagedFiles {r : Repository} {s : Store} (hslashless : r.files.Slashless)
    (h : r.stagedFiles s = some index) : index.Coherent where
  ordered := by
    obtain ⟨files, -, rfl⟩ := Option.map_eq_some_iff.1 h
    exact Snapshot.ordered_ofList files
  apart := by
    intro e he f hf hbegins
    have hshows := shows_stagedFiles hslashless h
    have hsame := (hshows e he).apart (hshows f hf) (Text.splitOn_ne_nil '/' e.1) hbegins
    exact Text.splitOn_injective hsame

end Repository

end ReleaseHistory
