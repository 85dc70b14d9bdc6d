import ReleaseHistory.Proofs.Text.Split
import ReleaseHistory.Proofs.Toml.Json
import ReleaseHistory.Proofs.Toml.Path

/-!
# Values with dotted keys in a release document

A value with a dotted key can be put into a document unless nothing stands after the last dot of its
key. The first such key of the settings is the one that is named. The values are put in in the order
of their keys, in which a key comes before those that go on from it, so that none takes the place of
another one that it does not go on from.
-/

namespace ReleaseHistory

namespace ReleaseDocument

theorem insertDotted?_eq_none {key : String} {v : Toml} {t : Toml.Table} :
    Toml.Table.insertDotted? key v t = none ↔ (Text.splitOn '.' key).getLast? = some "" := by
  unfold Toml.Table.insertDotted?
  simp only [List.getLast?_eq_some_getLast (Text.splitOn_ne_nil '.' key), Option.some.injEq]
  split
  · rename_i hempty
    exact iff_of_true rfl (String.isEmpty_iff.1 hempty)
  · rename_i hfull
    refine iff_of_false nofun ?_
    rwa [← String.isEmpty_iff]

theorem insertAll_eq_error {extra : List (String × Toml)} {t : Toml.Table} {e : Fault}
    (h : insertAll extra t = .error e) :
    ∃ key v, (key, v) ∈ extra ∧ (Text.splitOn '.' key).getLast? = some "" ∧
      e = .configuration (.key key) := by
  induction extra generalizing t with
  | nil => cases h
  | cons entry rest ih =>
    obtain ⟨key, v⟩ := entry
    rw [insertAll] at h
    split at h
    · obtain ⟨k, w, hmem, hkey, he⟩ := ih h
      exact ⟨k, w, List.mem_cons_of_mem _ hmem, hkey, he⟩
    · rename_i hnone
      exact ⟨key, v, List.mem_cons_self .., insertDotted?_eq_none.1 hnone, (Except.error.inj h).symm⟩

/-- All values can be put into a document exactly if all their keys can be set. -/
theorem exists_insertAll {extra : List (String × Toml)} {t : Toml.Table} :
    (∃ u, insertAll extra t = .ok u) ↔
      ∀ entry ∈ extra, (Text.splitOn '.' entry.1).getLast? ≠ some "" := by
  induction extra generalizing t with
  | nil => simp [insertAll]
  | cons entry rest ih =>
    obtain ⟨key, v⟩ := entry
    have hkey : (Text.splitOn '.' key).getLast? ≠ some "" ↔ t.insertDotted? key v ≠ none :=
      not_congr insertDotted?_eq_none.symm
    rw [insertAll, List.forall_mem_cons, hkey]
    cases Toml.Table.insertDotted? key v t with
    | none => simp
    | some u => simp [ih]

theorem exists_text {c : Configuration} {f : TagFormat} :
    (∃ text, ReleaseDocument.text c f = .ok text) ↔
      ∀ entry ∈ c.extra, (Text.splitOn '.' entry.1).getLast? ≠ some "" := by
  rw [← exists_insertAll (t := baseTable c f), text, table]
  cases insertAll c.extra (baseTable c f) <;> simp [Except.map]

open Toml (Table Apart at?)

variable {key : String} {v : Toml} {t u : Table} {extra : List (String × Toml)} {path : List String}

/-! ### What the values leave -/

theorem insertDotted?_eq_some (h : t.insertDotted? key v = some u) :
    ∃ before leaf, Text.splitOn '.' key = before ++ [leaf] ∧ u = t.insertAt before leaf v := by
  unfold Table.insertDotted? at h
  dsimp only at h
  split at h
  · cases h
  · rename_i leaf hleaf
    split at h
    · cases h
    · refine ⟨_, leaf, ?_, (Option.some.inj h).symm⟩
      rw [List.dropLast_append_getLast? leaf hleaf]

theorem at?_insertDotted (h : t.insertDotted? key v = some u) :
    at? (Text.splitOn '.' key) (.table u) = some v := by
  obtain ⟨before, leaf, hpath, rfl⟩ := insertDotted?_eq_some h
  rw [hpath, Table.at?_insertAt]

theorem at?_insertDotted_of_apart (h : t.insertDotted? key v = some u)
    (hpath : Apart path (Text.splitOn '.' key)) : at? path (.table u) = at? path (.table t) := by
  obtain ⟨before, leaf, heq, rfl⟩ := insertDotted?_eq_some h
  rw [heq] at hpath
  exact Table.at?_insertAt_of_apart hpath v t

/-- Where no key of the values leads, and nothing on the way there, everything is as it was. -/
theorem at?_insertAll_of_apart (h : insertAll extra t = .ok u)
    (hpath : ∀ entry ∈ extra, Apart path (Text.splitOn '.' entry.1)) :
    at? path (.table u) = at? path (.table t) := by
  induction extra generalizing t with
  | nil =>
    cases h
    rfl
  | cons entry rest ih =>
    obtain ⟨hentry, hrest⟩ := List.forall_mem_cons.1 hpath
    obtain ⟨key, v⟩ := entry
    rw [insertAll] at h
    split at h
    · rename_i w hw
      rw [ih h hrest, at?_insertDotted_of_apart hw hentry]
    · cases h

theorem at?_insertAll {before after : List (String × Toml)}
    (h : insertAll (before ++ (key, v) :: after) t = .ok u)
    (hafter : ∀ entry ∈ after, Apart (Text.splitOn '.' key) (Text.splitOn '.' entry.1)) :
    at? (Text.splitOn '.' key) (.table u) = some v := by
  induction before generalizing t with
  | nil =>
    rw [List.nil_append, insertAll] at h
    split at h
    · rename_i w hw
      rw [at?_insertAll_of_apart h hafter, at?_insertDotted hw]
    · cases h
  | cons entry before ih =>
    obtain ⟨k, w⟩ := entry
    rw [List.cons_append, insertAll] at h
    split at h
    · exact ih h
    · cases h

theorem lt_of_append_dot {a b : String} {rest : List Char} (h : b.toList = a.toList ++ '.' :: rest) :
    a < b := by
  have hlt : a.toList ++ [] < a.toList ++ '.' :: rest := List.append_left_lt (List.nil_lt_cons _ _)
  rw [List.append_nil, ← h] at hlt
  exact String.lt_iff_toList_lt.2 hlt

/-- A key that comes after another one, and does not go on from it, leads elsewhere. -/
theorem apart_of_lt {a b : String} (hlt : a < b) (hno : ¬(a ++ ".").toList <+: b.toList) :
    Apart (Text.splitOn '.' a) (Text.splitOn '.' b) := by
  constructor
  · intro hbegins
    rcases Text.eq_or_append_of_splitOn hbegins with rfl | ⟨rest, hrest⟩
    · exact String.lt_irrefl _ hlt
    · exact hno ⟨rest, by rw [hrest]; simp⟩
  · intro hbegins
    rcases Text.eq_or_append_of_splitOn hbegins with rfl | ⟨rest, hrest⟩
    · exact String.lt_irrefl _ hlt
    · exact String.lt_irrefl _ (String.lt_trans hlt (lt_of_append_dot hrest))

/-- The table of the settings is made unless a key has nothing after its last dot. In it a key that no
other one goes on from leads to its value, and what no key leads to or through is as the settings
alone make it. -/
theorem extra_prevails {c : Configuration} (f : TagFormat) (hkeys : Ascending (c.extra.map (·.1))) :
    ((∃ e, table c f = .error e) ↔
      ∃ entry ∈ c.extra, (Text.splitOn '.' entry.1).getLast? = some "") ∧
    ∀ t, table c f = .ok t →
      ReleaseDocument.text c f = .ok (Toml.write [("semantic_release", .table t)]) ∧
      (∀ entry ∈ c.extra, (∀ other ∈ c.extra, ¬(entry.1 ++ ".").toList <+: other.1.toList) →
        at? (Text.splitOn '.' entry.1) (.table t) = some entry.2) ∧
      ∀ path, (∀ entry ∈ c.extra, Apart path (Text.splitOn '.' entry.1)) →
        at? path (.table t) = at? path (.table (baseTable c f)) := by
  refine ⟨?_, fun t ht => ⟨by rw [ReleaseDocument.text, ht]; rfl, ?_, ?_⟩⟩
  · have hmade : (∃ t, table c f = .ok t) ↔ _ := exists_insertAll
    constructor
    · rintro ⟨e, he⟩
      by_contra hnone
      obtain ⟨t, ht⟩ := hmade.2 fun entry hentry hempty => hnone ⟨entry, hentry, hempty⟩
      rw [he] at ht
      cases ht
    · rintro ⟨entry, hentry, hempty⟩
      cases htable : table c f with
      | error e => exact ⟨e, rfl⟩
      | ok t => exact absurd hempty (hmade.1 ⟨t, htable⟩ entry hentry)
  · intro entry hentry hlast
    obtain ⟨key, v⟩ := entry
    obtain ⟨before, after, hextra⟩ := List.append_of_mem hentry
    rw [table, hextra] at ht
    apply at?_insertAll ht
    intro other hother
    -- what is put in later has a greater key, so it cannot be on the way to this one
    rw [hextra, List.map_append, List.map_cons] at hkeys
    have hlt : key < other.1 := by
      have hafter := (List.pairwise_append.1 hkeys).2.1
      exact List.rel_of_pairwise_cons hafter (List.mem_map_of_mem hother)
    exact apart_of_lt hlt (hlast other (by rw [hextra]; simp [hother]))
  · exact fun path hpath => at?_insertAll_of_apart ht hpath

/-- Settings with values in place of a generated one, of a generated table, and in that table. -/
def overriding : Configuration :=
  ⟨.angular, "github", "github.com", none, true, .default,
    [("branches.main.match", .string "^trunk$"), ("remote", .boolean true),
      ("remote.token", .string "secret")]⟩

theorem extra_prevails_overriding : Ascending (overriding.extra.map (·.1)) ∧
    ∃ t, ReleaseDocument.text overriding .default =
        .ok (Toml.write [("semantic_release", .table t)]) ∧
      at? ["branches", "main", "match"] (.table t) = some (.string "^trunk$") ∧
      at? ["remote", "token"] (.table t) = some (.string "secret") ∧
      at? ["changelog", "mask_initial_release"] (.table t) = some (.boolean true) := by
  have hkeys : Ascending (overriding.extra.map (·.1)) := by decide
  have hlast : ∀ entry ∈ overriding.extra, (Text.splitOn '.' entry.1).getLast? ≠ some "" := by
    simp only [overriding, List.forall_mem_cons]
    decide
  obtain ⟨t, ht⟩ : ∃ t, table overriding .default = .ok t := exists_insertAll.2 hlast
  obtain ⟨htext, hprevails, hkept⟩ := (extra_prevails .default hkeys).2 t ht
  refine ⟨hkeys, t, htext, ?_, ?_, ?_⟩
  · apply hprevails ("branches.main.match", .string "^trunk$") (by simp [overriding])
    simp only [overriding, List.forall_mem_cons]
    decide
  · apply hprevails ("remote.token", .string "secret") (by simp [overriding])
    simp only [overriding, List.forall_mem_cons]
    decide
  · refine (hkept ["changelog", "mask_initial_release"] ?_).trans rfl
    simp only [overriding, List.forall_mem_cons, Apart]
    decide

end ReleaseDocument

end ReleaseHistory
