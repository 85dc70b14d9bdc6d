import ReleaseHistory.Proofs.Operation
import ReleaseHistory.Proofs.ReleaseDocument

/-!
# Setting a dotted key in place

A value with a dotted key can be put into a table where the table stands. The way to it leads from
part to part of the key: what is under a part is made a table if it is not one yet, and is then
changed where it is. This gives the table into which the value is inserted all at once, so that the
key leads to the value and what is apart from the key stays. The way is never barred; only a key with
nothing after its last dot is refused, before anything is changed.
-/

namespace ReleaseHistory.Toml.Table

open Operation

/-- A table as it is, and an empty one in place of anything else. -/
def asTable : Toml → Toml
  | .table t => .table t
  | _ => .table []

/-- Gives the key at the end of a path a value in place, unless the way there is barred. -/
def setAt (barred : Fault) (path : List String) (leaf : String) (v : Toml) : Operation Table Unit :=
  match path with
  | [] => modify fun t => t.insert leaf v
  | part :: parts => do
    let entry := asTable (((← get).get? part).getD (.table []))
    modify fun t => t.insert part entry
    match entry with
    | .table inner =>
      let (result, inner) := on (setAt barred parts leaf v) inner
      modify fun t => t.insert part (.table inner)
      match result with
      | .ok _ => return ()
      | .error e => throw e
    | _ => throw barred

def setDotted (key : String) (v : Toml) : Operation Table Unit :=
  let refusal := Fault.configuration (.key key)
  let parts := Text.splitOn '.' key
  match parts.getLast? with
  | some leaf => if leaf.isEmpty then throw refusal else setAt refusal parts.dropLast leaf v
  | none => throw refusal

variable {t u : Table} {key : String} {v w : Toml}

/-! ### The way -/

theorem asTable_get? (t : Table) (key : String) :
    asTable ((t.get? key).getD (.table [])) = .table (t.tableAt key) := by
  rw [tableAt]
  cases t.get? key with
  | none => rfl
  | some v => cases v <;> rfl

theorem on_setAt (barred : Fault) (path : List String) (leaf : String) (v : Toml) (t : Table) :
    on (setAt barred path leaf v) t = (.ok (), t.insertAt path leaf v) := by
  induction path generalizing t with
  | nil => rw [setAt, on_modify, insertAt]
  | cons part parts ih =>
    rw [setAt, on_bind_of_ok on_get, asTable_get?, on_bind_of_ok (on_modify _)]
    dsimp only
    rw [ih, on_bind_of_ok (on_modify _), on_pure, insert_insert, insertAt]

/-! ### The key -/

/-- Setting in place is inserting, and a key that is refused leaves the table as it is. -/
theorem on_setDotted (key : String) (v : Toml) (t : Table) :
    on (setDotted key v) t = match t.insertDotted? key v with
      | some u => (.ok (), u)
      | none => (.error (.configuration (.key key)), t) := by
  unfold setDotted insertDotted?
  dsimp only
  cases (Text.splitOn '.' key).getLast? with
  | none => rfl
  | some leaf =>
    dsimp only
    split
    · rfl
    · exact on_setAt ..

theorem setDotted_eq_ok (h : on (setDotted key v) t = (.ok (), u)) :
    t.insertDotted? key v = some u := by
  rw [on_setDotted] at h
  split at h
  · rename_i u' hu
    cases h
    exact hu
  · cases h

theorem setDotted_eq_error {e : Fault} (h : on (setDotted key v) t = (.error e, u)) :
    t.insertDotted? key v = none ∧ u = t := by
  rw [on_setDotted] at h
  split at h
  · cases h
  · rename_i hnone
    cases h
    exact ⟨hnone, rfl⟩

theorem insertDotted?_insertDotted? (h : t.insertDotted? key v = some u) (w : Toml) :
    ∃ r, u.insertDotted? key w = some r ∧ t.insertDotted? key w = some r := by
  unfold insertDotted? at h ⊢
  dsimp only at h ⊢
  split at h
  · cases h
  · rename_i leaf hleaf
    split at h
    · cases h
    · rename_i hfull
      cases h
      rw [if_neg hfull, if_neg hfull, insertAt_insertAt]
      exact ⟨_, rfl, rfl⟩

theorem on_setDotted_bind (key : String) (v w : Toml) (t : Table) :
    on (setDotted key v >>= fun _ => setDotted key w) t = on (setDotted key w) t := by
  cases hset : t.insertDotted? key v with
  | none =>
    have hagain : t.insertDotted? key w = none :=
      ReleaseDocument.insertDotted?_eq_none.2 (ReleaseDocument.insertDotted?_eq_none.1 hset)
    have hfirst : on (setDotted key v) t = (.error (.configuration (.key key)), t) := by
      rw [on_setDotted, hset]
    rw [on_bind_of_error hfirst, on_setDotted, hagain]
  | some u =>
    have hfirst : on (setDotted key v) t = (.ok (), u) := by
      rw [on_setDotted, hset]
    obtain ⟨r, hafter, hbefore⟩ := insertDotted?_insertDotted? hset w
    rw [on_bind_of_ok hfirst, on_setDotted, on_setDotted, hafter, hbefore]

/-- A dotted key that is set leads to its value, and what is apart from it is as it was. A key is
refused only if nothing stands after its last dot, the way to it is never barred, and what is refused
changes nothing. The value that is set last stays. -/
theorem at?_setDotted (t : Table) (key : String) (v : Toml) :
    (∀ u, on (setDotted key v) t = (.ok (), u) →
      t.insertDotted? key v = some u ∧ at? (Text.splitOn '.' key) (.table u) = some v ∧
        ∀ path, Apart path (Text.splitOn '.' key) → at? path (.table u) = at? path (.table t)) ∧
    (∀ e u, on (setDotted key v) t = (.error e, u) →
      t.insertDotted? key v = none ∧ (Text.splitOn '.' key).getLast? = some "" ∧ u = t) ∧
    (∀ barred path leaf, ∃ u, on (setAt barred path leaf v) t = (.ok (), u)) ∧
    ∀ w, on (setDotted key v >>= fun _ => setDotted key w) t = on (setDotted key w) t := by
  refine ⟨fun u h => ?_, fun e u h => ?_, fun barred path leaf => ?_, fun w => ?_⟩
  · have hset := setDotted_eq_ok h
    exact ⟨hset, ReleaseDocument.at?_insertDotted hset,
      fun path hpath => ReleaseDocument.at?_insertDotted_of_apart hset hpath⟩
  · obtain ⟨hnone, hu⟩ := setDotted_eq_error h
    exact ⟨hnone, ReleaseDocument.insertDotted?_eq_none.1 hnone, hu⟩
  · exact ⟨_, on_setAt barred path leaf v t⟩
  · exact on_setDotted_bind key v w t

/-- A text and nothing, on the way of a key. -/
def hosted : Table :=
  [("branches", .table [("main", .boolean true)]), ("remote", .string "github")]

/-- Tables are made in place of a text and of nothing on the way, and what is beside them stays. -/
theorem at?_setDotted_hosted : ∃ u,
    on (setDotted "remote..token" (.string "secret")) hosted = (.ok (), u) ∧
    at? ["remote", "", "token"] (.table u) = some (.string "secret") ∧
    at? ["branches", "main"] (.table u) = some (.boolean true) := by
  have hparts : Text.splitOn '.' "remote..token" = ["remote", "", "token"] := by decide
  have hset : hosted.insertDotted? "remote..token" (.string "secret") ≠ none := by
    rw [ne_eq, ReleaseDocument.insertDotted?_eq_none, hparts]
    decide
  obtain ⟨u, hu⟩ := Option.ne_none_iff_exists'.1 hset
  have hon : on (setDotted "remote..token" (.string "secret")) hosted = (.ok (), u) := by
    rw [on_setDotted, hu]
  obtain ⟨-, hvalue, hkept⟩ := (at?_setDotted hosted "remote..token" (.string "secret")).1 u hon
  rw [hparts] at hvalue hkept
  exact ⟨u, hon, hvalue, (hkept ["branches", "main"] (by simp [Apart])).trans rfl⟩

end ReleaseHistory.Toml.Table
