import Mathlib.Data.List.Infix
import Mathlib.Tactic.SplitIfs
import ReleaseHistory.ReleaseDocument

/-!
# Paths through tables

A path of keys leads from a table through the tables in it to a value. Giving the end of a path a
value makes the path lead to that value, whatever was on the way before. Every path that does not
begin the other one, and that the other one does not begin, leads where it has led.
-/

namespace ReleaseHistory.Toml

def at? : List String → Toml → Option Toml
  | [], v => some v
  | key :: path, .table t => (Table.get? key t).bind (at? path)
  | _ :: _, _ => none

@[simp] theorem at?_nil (v : Toml) : at? [] v = some v := by
  rw [at?]

@[simp] theorem at?_table (key : String) (path : List String) (t : Table) :
    at? (key :: path) (.table t) = (t.get? key).bind (at? path) := by
  rw [at?]

/-- Neither of two paths begins the other. -/
def Apart (p q : List String) : Prop := ¬p <+: q ∧ ¬q <+: p

theorem Apart.ne_nil {p q : List String} (h : Apart p q) : p ≠ [] := by
  rintro rfl
  exact h.1 List.nil_prefix

theorem apart_cons {key : String} {p q : List String} :
    Apart (key :: p) (key :: q) ↔ Apart p q := by
  simp [Apart, List.cons_prefix_cons]

namespace Table

variable {t : Table} {key leaf : String} {path : List String} {v : Toml}

theorem get?_cons (key k : String) (v : Toml) (t : Table) :
    get? key ((k, v) :: t) = if key = k then some v else t.get? key := by
  by_cases hkey : key = k
  · rw [if_pos hkey, hkey, get?, List.lookup_cons_self]
  · rw [if_neg hkey, get?, List.lookup_cons, beq_eq_false_iff_ne.2 hkey]
    rfl

theorem get?_insert (t : Table) (key : String) (v : Toml) (other : String) :
    (t.insert key v).get? other = if other = key then some v else t.get? other := by
  induction t with
  | nil => rw [insert, get?_cons]
  | cons entry rest ih =>
    obtain ⟨k, w⟩ := entry
    rw [insert]
    by_cases hother : other = key
    · split_ifs with hkey hbefore
      · rw [get?_cons, if_pos hother]
      · rw [get?_cons, if_pos hother]
      · rw [get?_cons, if_neg (by rwa [hother]), ih, if_pos hother]
    · rw [if_neg hother] at ih ⊢
      split_ifs with hkey hbefore
      · rw [get?_cons, if_neg hother, get?_cons, if_neg (by rwa [← hkey])]
      · rw [get?_cons, if_neg hother]
      · rw [get?_cons, get?_cons, ih]

theorem insert_insert (t : Table) (key : String) (v w : Toml) :
    (t.insert key v).insert key w = t.insert key w := by
  induction t with
  | nil => simp [insert]
  | cons entry rest ih =>
    obtain ⟨k, u⟩ := entry
    simp only [insert]
    split_ifs with hkey hbefore
    · rw [insert, if_pos rfl]
    · rw [insert, if_pos rfl]
    · rw [insert, if_neg hkey, if_neg hbefore, ih]

theorem tableAt_insert (t : Table) (key : String) (u : Table) :
    (t.insert key (.table u)).tableAt key = u := by
  rw [tableAt, get?_insert, if_pos rfl]

/-- A path goes on through the table under its first key, which is empty if there is none. -/
theorem at?_tableAt (t : Table) (key : String) (hpath : path ≠ []) :
    at? path (.table (t.tableAt key)) = at? (key :: path) (.table t) := by
  obtain ⟨next, path, rfl⟩ := List.exists_cons_of_ne_nil hpath
  have hempty : at? (next :: path) (.table []) = none := rfl
  rw [at?_table key, tableAt]
  cases hvalue : t.get? key with
  | none => exact hempty
  | some w =>
    cases w with
    | table u => rfl
    | _ => exact hempty

/-! ### Giving a path a value -/

theorem at?_insertAt (path : List String) (leaf : String) (v : Toml) (t : Table) :
    at? (path ++ [leaf]) (.table (t.insertAt path leaf v)) = some v := by
  induction path generalizing t with
  | nil => simp [insertAt, get?_insert]
  | cons key path ih => simp [insertAt, get?_insert, ih]

theorem insertAt_insertAt (path : List String) (leaf : String) (v w : Toml) (t : Table) :
    (t.insertAt path leaf v).insertAt path leaf w = t.insertAt path leaf w := by
  induction path generalizing t with
  | nil => exact insert_insert t leaf v w
  | cons key path ih => rw [insertAt, insertAt, tableAt_insert, insert_insert, ih, insertAt]

/-- A path that is apart from the one that is given a value leads where it has led. -/
theorem at?_insertAt_of_apart {other : List String} (h : Apart other (path ++ [leaf])) (v : Toml)
    (t : Table) : at? other (.table (t.insertAt path leaf v)) = at? other (.table t) := by
  -- along the path, as long as both have the same keys
  induction path generalizing t other with
  | nil =>
    obtain ⟨key, rest, rfl⟩ := List.exists_cons_of_ne_nil h.ne_nil
    have hkey : key ≠ leaf := by
      rintro rfl
      exact h.2 (List.cons_prefix_cons.2 ⟨rfl, List.nil_prefix⟩)
    rw [insertAt, at?_table, at?_table, get?_insert, if_neg hkey]
  | cons first path ih =>
    obtain ⟨key, rest, rfl⟩ := List.exists_cons_of_ne_nil h.ne_nil
    rw [insertAt, at?_table, get?_insert]
    by_cases hkey : key = first
    · subst hkey
      rw [List.cons_append, apart_cons] at h
      rw [if_pos rfl, Option.bind_some, ih h, at?_tableAt t key h.ne_nil]
    · rw [if_neg hkey, at?_table]

end Table

end ReleaseHistory.Toml
