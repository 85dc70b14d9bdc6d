import ReleaseHistory.Proofs.Json.Text
import ReleaseHistory.Proofs.Toml.Datetime
import ReleaseHistory.Toml.Json

/-!
# Configuration values through JSON

A configuration value comes back from its JSON form if it holds no reals and no table of it has the
reserved key. As many levels are needed as the form is deep.
-/

namespace ReleaseHistory

/-- Keys in order, each once. -/
def Ascending (keys : List String) : Prop := keys.Pairwise (· < ·)

instance (keys : List String) : Decidable (Ascending keys) :=
  inferInstanceAs (Decidable (keys.Pairwise (· < ·)))

theorem Ascending.before {before after : List String} {key : String}
    (h : Ascending (before ++ key :: after)) : ∀ k ∈ before, k < key := by
  intro k hk
  exact (List.pairwise_append.1 h).2.2 k hk key (List.mem_cons_self ..)

/-- Entries put one after another where their keys belong stand as they were given, if their keys
ascend. -/
theorem Ascending.foldl_insert {α : Type} {insert : String → α → List (String × α) →
      List (String × α)}
    (hinsert : ∀ {t key} (v : α), (∀ k ∈ t.map (·.1), k < key) → insert key v t = t ++ [(key, v)])
    {t entries : List (String × α)} (h : Ascending ((t ++ entries).map (·.1))) :
    entries.foldl (fun t (k, v) => insert k v t) t = t ++ entries := by
  induction entries generalizing t with
  | nil => simp
  | cons entry rest ih =>
    obtain ⟨k, v⟩ := entry
    have hbefore : ∀ l ∈ t.map (·.1), l < k := by
      rw [List.map_append] at h
      exact h.before
    have hmoved : t ++ (k, v) :: rest = (t ++ [(k, v)]) ++ rest := by simp
    rw [hmoved] at h
    simp only [List.foldl_cons, hinsert v hbefore]
    rw [ih h, hmoved]

namespace Toml

mutual

/-- A value that JSON can carry. Integers of 64 bits and tables in the order of their keys are what
every value has; no reals and no reserved key are asked of it. -/
def Portable : Toml → Prop
  | .integer n => -0x8000000000000000 ≤ n ∧ n ≤ (maxInteger : Int)
  | .real _ => False
  | .datetime _ => True
  | .array items => PortableItems items
  | .table entries =>
    Ascending (entries.map (·.1)) ∧ datetimeKey ∉ entries.map (·.1) ∧ PortableEntries entries
  | .string _ => True
  | .boolean _ => True

/-- Items that JSON can carry. -/
def PortableItems : List Toml → Prop
  | [] => True
  | v :: vs => Portable v ∧ PortableItems vs

/-- Entries whose values JSON can carry. -/
def PortableEntries : List (String × Toml) → Prop
  | [] => True
  | (_, v) :: rest => Portable v ∧ PortableEntries rest

end

/-! ### The form of a value is exact -/

mutual

theorem exact_toJson : ∀ {v : Toml}, Portable v → Json.Exact v.toJson
  | .string _, _ => trivial
  | .boolean _, _ => trivial
  | .integer n, h => by
    have hmax : (maxInteger : Int) ≤ (Text.maxWord : Int) := by decide
    exact ⟨h.1, Int.le_trans h.2 hmax⟩
  | .datetime _, _ => ⟨trivial, trivial⟩
  | .array _, h => exactItems_toJson h
  | .table _, h => exactMembers_toJson h.2.2

theorem exactItems_toJson : ∀ {vs : List Toml}, PortableItems vs →
    Json.ExactItems (toJsonItems vs)
  | [], _ => trivial
  | _ :: _, h => ⟨exact_toJson h.1, exactItems_toJson h.2⟩

theorem exactMembers_toJson : ∀ {entries : List (String × Toml)}, PortableEntries entries →
    Json.ExactMembers (toJsonEntries entries)
  | [], _ => trivial
  | _ :: _, h => ⟨exact_toJson h.1, exactMembers_toJson h.2⟩

end

/-! ### Tables built in order -/

theorem Table.get?_eq_none {t : Table} {key : String} (h : ∀ k ∈ t.map (·.1), k < key) :
    t.get? key = none := by
  induction t with
  | nil => rfl
  | cons entry t ih =>
    have hlt := h entry.1 (by simp)
    have hne : (key == entry.1) = false := by
      rw [beq_eq_false_iff_ne]
      rintro rfl
      exact absurd hlt (String.lt_irrefl _)
    have hrest : t.lookup key = none := ih fun k hk => h k (by simp [List.mem_map.1 hk])
    rw [Table.get?, List.lookup_cons, hne]
    exact hrest

theorem Table.insert_eq_append {t : Table} {key : String} (v : Toml)
    (h : ∀ k ∈ t.map (·.1), k < key) : t.insert key v = t ++ [(key, v)] := by
  induction t with
  | nil => rfl
  | cons entry t ih =>
    obtain ⟨k, w⟩ := entry
    have hlt : k < key := h k (by simp)
    have hne : key ≠ k := by
      rintro rfl
      exact String.lt_irrefl _ hlt
    have hnot : ¬key < k := fun hkey => String.lt_irrefl _ (String.lt_trans hkey hlt)
    have hrest := ih fun l hl => h l (List.mem_cons_of_mem k hl)
    rw [Table.insert, if_neg hne, if_neg hnot, hrest]
    rfl

theorem Table.ofList_eq {entries : Table} (h : Ascending (entries.map (·.1))) :
    Table.ofList entries = entries :=
  Ascending.foldl_insert Table.insert_eq_append h

/-! ### Reading a value back -/

mutual

theorem ofJson_toJson : ∀ {v : Toml} {levels : Nat}, Portable v → v.toJson.depth ≤ levels →
    ofJson levels v.toJson = some v
  | .string _, _, _, _ => rfl
  | .boolean _, _, _, _ => rfl
  | .integer _, _, h, _ => if_pos h.2
  | .datetime d, 0, _, hdepth => absurd hdepth (by simp [toJson, Json.depth])
  | .datetime d, levels + 1, _, _ => by
    simp [toJson, ofJson, Datetime.parse?_text]
  | .array items, 0, _, hdepth => absurd hdepth (by simp [toJson, Json.depth])
  | .array items, levels + 1, h, hdepth => by
    have hitems := ofJsonItems_toJson h (Nat.le_of_succ_le_succ hdepth)
    simp [toJson, ofJson, hitems]
  | .table entries, 0, _, hdepth => absurd hdepth (by simp [toJson, Json.depth])
  | .table [], levels + 1, _, _ => rfl
  | .table ((k, v) :: rest), levels + 1, h, hdepth => by
    obtain ⟨hascending, hkey, hentries⟩ := h
    have hk : k ≠ datetimeKey := fun heq => hkey (by simp [heq])
    have hmembers : ofJsonMembers levels [] (toJsonEntries ((k, v) :: rest)) =
        some ([] ++ (k, v) :: rest) :=
      ofJsonMembers_toJson hascending hentries (Nat.le_of_succ_le_succ hdepth)
    rw [toJsonEntries, List.nil_append] at hmembers
    rw [toJson, toJsonEntries, ofJson.eq_def]
    simp only [hk, if_false, hmembers, Option.map_some]

theorem ofJsonItems_toJson : ∀ {vs : List Toml} {levels : Nat}, PortableItems vs →
    Json.depthItems (toJsonItems vs) ≤ levels → ofJsonItems levels (toJsonItems vs) = some vs
  | [], _, _, _ => rfl
  | v :: vs, levels, h, hdepth => by
    obtain ⟨hfirst, hrest⟩ := Nat.max_le.1 hdepth
    have hv := ofJson_toJson h.1 hfirst
    have hvs := ofJsonItems_toJson h.2 hrest
    simp [toJsonItems, ofJsonItems, hv, hvs]

theorem ofJsonMembers_toJson : ∀ {entries t : Table} {levels : Nat},
    Ascending ((t ++ entries).map (·.1)) → PortableEntries entries →
    Json.depthMembers (toJsonEntries entries) ≤ levels →
    ofJsonMembers levels t (toJsonEntries entries) = some (t ++ entries)
  | [], t, _, _, _, _ => by simp [toJsonEntries, ofJsonMembers]
  | (k, v) :: rest, t, levels, hascending, h, hdepth => by
    obtain ⟨hfirst, hlast⟩ := Nat.max_le.1 hdepth
    have hbefore : ∀ l ∈ t.map (·.1), l < k := by
      rw [List.map_append] at hascending
      exact hascending.before
    have hmoved : t ++ (k, v) :: rest = (t ++ [(k, v)]) ++ rest := by simp
    rw [hmoved] at hascending
    have hv := ofJson_toJson h.1 hfirst
    have hrest := ofJsonMembers_toJson hascending h.2 hlast
    simp [toJsonEntries, ofJsonMembers, Table.get?_eq_none hbefore, hv,
      Table.insert_eq_append v hbefore, hrest]

end

end Toml

end ReleaseHistory
