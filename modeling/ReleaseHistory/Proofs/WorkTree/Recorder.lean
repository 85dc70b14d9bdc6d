import ReleaseHistory.Proofs.Operation
import ReleaseHistory.WorkTree.Recorder

/-!
# What a recorder does

Each operation of a recorder either succeeds with a definite new recorder, or is refused and leaves
the recorder as it was.
-/

namespace ReleaseHistory.Recorder
open Operation

theorem lookup_put {α β : Type} [DecidableEq α] [BEq α] [LawfulBEq α] (key other : α) (value : β)
    (l : List (α × β)) : (put key value l).lookup other = if other = key then some value else l.lookup other := by
  induction l with
  | nil => by_cases h : other = key <;> simp [put, List.lookup_cons, h, beq_eq_false_iff_ne.2]
  | cons entry rest ih =>
    obtain ⟨k, v⟩ := entry
    by_cases hk : k = key
    · by_cases h : other = key <;> simp [put, List.lookup_cons, hk, h, beq_eq_false_iff_ne.2]
    · by_cases ho : other = k
      · simp [put, hk, ho]
      · simp [put, List.lookup_cons, hk, ih, beq_eq_false_iff_ne.2 ho]

variable {r : Recorder}

theorem on_history {name : String} :
    on (history name) r = match r.history? name with
      | some h => (.ok h, r)
      | none => (.error (.configuration (.recordedBranch name)), r) := by
  simp only [history, on_bind, on_get]
  cases r.history? name <;> rfl

theorem on_checkout {name : String} :
    on (WorkTree.checkout name) r = match r.history? name with
      | some _ => (.ok (), { r with
          current := name
          operations := r.operations ++ [s!"checkout {name}"] })
      | none => (.error (.configuration (.recordedBranch name)), r) := by
  simp only [WorkTree.checkout, checkout, on_bind, on_history]
  cases r.history? name <;> rfl

theorem on_createBranch {name start : String} :
    on (WorkTree.createBranch name start) r = match r.history? start with
      | some h => (.ok (), { r with
          current := name
          branches := put name h r.branches
          operations := r.operations ++ [s!"branch {name} from {start}"] ++ [s!"checkout {name}"] })
      | none => (.error (.configuration (.recordedBranch start)), r) := by
  simp only [WorkTree.createBranch, createBranch, on_bind, on_history]
  cases r.history? start with
  | none => rfl
  | some h =>
    simp only [setHistory, record, checkout, on_modify, on_bind, on_history, history?, lookup_put,
      if_true]

@[simp] theorem on_readText {path : String} :
    on (WorkTree.readText path) r = (.ok (r.file? path), r) := rfl

@[simp] theorem on_writeText {path text : String} :
    on (WorkTree.writeText path text) r =
      (.ok (), { r with files := put (Path.parts path) text r.files }) := rfl

theorem on_commit {message time : String} :
    on (WorkTree.commit message time) r =
      (.ok s!"mock-{((r.history? r.current).getD [] ++ [Text.firstLine message]).length}", { r with
        branches := put r.current ((r.history? r.current).getD [] ++ [Text.firstLine message])
          r.branches
        operations := r.operations ++ [s!"commit {r.current}: {Text.firstLine message}"] }) := rfl

theorem on_fastForward {branch : String} {source target : List String}
    (hs : r.history? branch = some source) (ht : r.history? r.current = some target) :
    on (WorkTree.merge branch .fastForward) r =
      if target <+: source then
        (.ok (), { r with
          branches := put r.current source r.branches
          operations := r.operations ++ [s!"fast-forward {r.current} to {branch}"] })
      else (.error (.merge (.behind r.current branch)), r) := by
  simp only [WorkTree.merge, merge, on_bind, on_history, hs, on_get, ht, List.isPrefixOf_iff_prefix]
  split <;> rfl

theorem on_mergeWithCommit {branch : String} {c : Commit} {source target : List String}
    (hs : r.history? branch = some source) (ht : r.history? r.current = some target) :
    on (WorkTree.merge branch (.withCommit c)) r =
      (.ok (), { r with
        branches := put r.current
          (target ++ source.filter (fun s => !target.contains s) ++ [c.message]) r.branches
        operations := r.operations ++ [s!"merge {branch} into {r.current}"] }) := by
  simp only [WorkTree.merge, merge, on_bind, on_history, hs, on_get, ht]
  rfl

/-- The history that a merge gives the current branch, from the history that is merged and its own. -/
inductive Joins (source target : List String) : MergeMode → List String → Prop
  | forward (behind : target <+: source) : Joins source target .fastForward source
  | commit (c : Commit) : Joins source target (.withCommit c)
      (target ++ source.filter (fun s => !target.contains s) ++ [c.message])

/-- A merge is refused and changes nothing, or it gives the current branch a history. -/
theorem merge_cases (r : Recorder) (branch : String) (mode : MergeMode) :
    (∃ fault, on (WorkTree.merge branch mode) r = (.error fault, r)) ∨
      ∃ source target joined operation, r.history? branch = some source ∧
        r.history? r.current = some target ∧ Joins source target mode joined ∧
        on (WorkTree.merge branch mode) r = (.ok (), { r with
          branches := put r.current joined r.branches
          operations := r.operations ++ [operation] }) := by
  have hmerge : (WorkTree.merge branch mode : Operation Recorder Unit) = merge branch mode := rfl
  cases hs : r.history? branch with
  | none =>
    refine .inl ⟨.configuration (.recordedBranch branch), ?_⟩
    simp only [hmerge, merge, on_bind, on_history, hs]
  | some source =>
    cases ht : r.history? r.current with
    | none =>
      refine .inl ⟨.configuration (.recordedBranch r.current), ?_⟩
      simp only [hmerge, merge, on_bind, on_history, hs, on_get, ht]
    | some target =>
      cases mode with
      | fastForward =>
        have hon := on_fastForward hs ht
        split at hon
        · rename_i hbehind
          exact .inr ⟨source, target, source, _, rfl, rfl, .forward hbehind, hon⟩
        · exact .inl ⟨_, hon⟩
      | withCommit c => exact .inr ⟨source, target, _, _, rfl, rfl, .commit c, on_mergeWithCommit hs ht⟩

theorem on_tag {name message time : String} :
    on (WorkTree.tag name message time) r =
      if name ∈ r.tags then (.error (.configuration (.recordedTag name)), r)
      else (.ok (), { r with
        tags := r.tags ++ [name]
        operations := r.operations ++ [s!"tag {name}"] }) := by
  simp only [WorkTree.tag, tag, on_bind, on_get, List.contains_iff_mem]
  split <;> rfl

end ReleaseHistory.Recorder
