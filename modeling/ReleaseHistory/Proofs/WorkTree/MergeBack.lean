import Mathlib.Data.List.Basic
import ReleaseHistory.Proofs.WorkTree.Calls
import ReleaseHistory.Proofs.WorkTree.Recorder

/-!
# Merging back

A recorder keeps a branch as a list of summaries. A merge with a commit puts what is new of the
merged branch behind the whole history of the branch that is checked out, so that the merged branch
can be moved on to the result only if its history was not torn apart in this way.
-/

namespace ReleaseHistory.Recorder

open Operation

variable {r : Recorder} {branch message : String} {source target own : List String} {c : Commit}

/-- The history of a branch after another one is merged into it with a commit. -/
def merged (target source : List String) (message : String) : List String :=
  target ++ source.filter (fun s => !target.contains s) ++ [message]

/-- What a branch has beyond another one is left as it is by a merge: none of its summaries is one of
the other branch, but for the last one, which may be if it is the message of the merge. -/
def Distinguished (target own : List String) (message : String) : Prop :=
  (∀ s ∈ own.dropLast, s ∉ target) ∧ ∀ s ∈ own.getLast?, s ∈ target → s = message

theorem filter_of_distinct (h : ∀ s ∈ own, s ∉ target) :
    own.filter (fun s => !target.contains s) = own := by
  rw [List.filter_eq_self]
  intro s hs
  simpa using h s hs

theorem prefix_of_distinguished (h : Distinguished target own message) :
    own <+: own.filter (fun s => !target.contains s) ++ [message] := by
  obtain ⟨hfirst, hlast⟩ := h
  rcases List.eq_nil_or_concat own with rfl | ⟨rest, last, rfl⟩
  · exact List.nil_prefix
  rw [List.concat_eq_append, List.dropLast_concat] at hfirst
  rw [List.concat_eq_append, List.getLast?_concat] at hlast
  rw [List.concat_eq_append, List.filter_append, filter_of_distinct hfirst]
  by_cases hmem : last ∈ target
  · obtain rfl := hlast last rfl hmem
    have hdropped : [last].filter (fun s => !target.contains s) = [] := by simp [hmem]
    exact ⟨[], by rw [hdropped, List.append_nil, List.append_nil]⟩
  · have hkept : [last].filter (fun s => !target.contains s) = [last] := by simp [hmem]
    rw [hkept]
    exact List.prefix_append _ _

theorem distinguished_of_prefix
    (h : own <+: own.filter (fun s => !target.contains s) ++ [message]) :
    Distinguished target own message := by
  have hkept : ∀ s ∈ own.filter (fun s => !target.contains s), s ∉ target := by
    intro s hs
    simpa using (List.mem_filter.1 hs).2
  rcases List.prefix_concat_iff.1 h with heq | hprefix
  · -- one summary was left out, and the message stands in its place
    constructor
    · intro s hs
      rw [heq, List.dropLast_concat] at hs
      exact hkept s hs
    · intro s hs _
      rw [heq, List.getLast?_concat] at hs
      exact (Option.mem_some.1 hs).symm
  · have hall : own.filter (fun s => !target.contains s) = own :=
      List.filter_sublist.eq_of_length_le hprefix.length_le
    rw [hall] at hkept
    constructor
    · intro s hs
      exact hkept s (List.dropLast_subset own hs)
    · intro s hs hmem
      exact absurd hmem (hkept s (List.mem_of_getLast? hs))

/-- A history begins the merged one if it begins the other history, or if it goes on from it. -/
theorem prefix_merged_iff : source <+: merged target source message ↔
    source <+: target ∨ ∃ own, source = target ++ own ∧ Distinguished target own message := by
  rw [merged, List.append_assoc]
  have hnone : target.filter (fun s => !target.contains s) = [] := by
    simp
  constructor
  · intro h
    rcases List.prefix_or_prefix_of_prefix h (List.prefix_append target _) with hle | ⟨own, rfl⟩
    · exact .inl hle
    · right
      rw [List.filter_append, hnone, List.nil_append, List.prefix_append_right_inj] at h
      exact ⟨own, rfl, distinguished_of_prefix h⟩
  · rintro (hle | ⟨own, rfl, hown⟩)
    · exact hle.trans (List.prefix_append target _)
    · rw [List.filter_append, hnone, List.nil_append, List.prefix_append_right_inj]
      exact prefix_of_distinguished hown

/-- A branch that was merged with a commit can be checked out, and moved on to the branch that it was
merged into exactly if its own history begins that of the other branch, or goes on from it with
summaries that the merge has left as they are. Otherwise it is refused as not being behind. -/
theorem on_forward_after_merge (hs : r.history? branch = some source)
    (ht : r.history? r.current = some target) (hne : branch ≠ r.current) :
    ∃ r₁ r₂, on (WorkTree.merge branch (.withCommit c)) r = (.ok (), r₁) ∧
      on (WorkTree.checkout branch) r₁ = (.ok (), r₂) ∧ r₂.current = branch ∧
      r₂.history? branch = some source ∧
      r₂.history? r.current = some (merged target source c.message) ∧
      ((on (WorkTree.merge r.current .fastForward) r₂).1 = .ok () ↔
        source <+: target ∨ ∃ own, source = target ++ own ∧ Distinguished target own c.message) ∧
      ((on (WorkTree.merge r.current .fastForward) r₂).1 ≠ .ok () →
        on (WorkTree.merge r.current .fastForward) r₂ =
          (.error (.merge (.behind branch r.current)), r₂)) := by
  have hmerge := on_mergeWithCommit (c := c) hs ht
  rcases hon : on (WorkTree.merge branch (.withCommit c)) r with ⟨result, r₁⟩
  rw [hmerge] at hon
  obtain ⟨rfl, hr₁⟩ := Prod.mk.inj hon
  have hother : r₁.history? branch = some source := by
    rw [← hr₁, history?, lookup_put, if_neg hne]
    exact hs
  have hjoined : r₁.history? r.current = some (merged target source c.message) := by
    rw [← hr₁, history?, lookup_put, if_pos rfl]
    rfl
  have hcheckout : on (WorkTree.checkout branch) r₁ = _ := on_checkout
  rw [hother] at hcheckout
  rcases hon : on (WorkTree.checkout branch) r₁ with ⟨result, r₂⟩
  rw [hcheckout] at hon
  obtain ⟨rfl, hr₂⟩ := Prod.mk.inj hon
  have hcurrent : r₂.current = branch := by rw [← hr₂]
  have hsource : r₂.history? branch = some source := by rw [← hr₂]; exact hother
  have htarget : r₂.history? r.current = some (merged target source c.message) := by
    rw [← hr₂]
    exact hjoined
  have hforward := on_fastForward htarget (hcurrent.symm ▸ hsource)
  rw [hcurrent] at hforward
  refine ⟨r₁, r₂, rfl, ?_, hcurrent, hsource, htarget, ?_, ?_⟩
  · rw [hcheckout, hr₂]
  · rw [hforward, ← prefix_merged_iff]
    split <;> rename_i hprefix
    · exact iff_of_true rfl hprefix
    · exact iff_of_false (by simp) hprefix
  · rw [hforward]
    split
    · exact fun hno => absurd rfl hno
    · exact fun _ => rfl

/-- A branch that goes on from the one it is merged into, in part with the same summaries. -/
def ahead : Recorder :=
  WorkTree.after .new [.commit "start" "2024-01-01T00:00:00+00:00",
    .commit "one" "2024-01-01T00:00:01+00:00", .createBranch "dev" "main",
    .commit "zero" "2024-01-01T00:00:02+00:00", .commit "one" "2024-01-01T00:00:03+00:00",
    .checkout "main"]

/-- The message of the merge stands in the place of the last summary. -/
theorem on_forward_after_merge_ahead :
    ahead.history? "dev" = some ["start", "one", "zero", "one"] ∧
      ahead.history? ahead.current = some ["start", "one"] ∧ "dev" ≠ ahead.current ∧
      ∃ r₁ r₂, on (WorkTree.merge "dev" (.withCommit ⟨"one", "2024-01-01T00:00:04+00:00", false⟩))
          ahead = (.ok (), r₁) ∧
        on (WorkTree.checkout "dev") r₁ = (.ok (), r₂) ∧
        (on (WorkTree.merge "main" .fastForward) r₂).1 = .ok () := by
  have hs : ahead.history? "dev" = some ["start", "one", "zero", "one"] := by decide +kernel
  have ht : ahead.history? ahead.current = some ["start", "one"] := by decide +kernel
  have hne : "dev" ≠ ahead.current := by decide +kernel
  have hcurrent : ahead.current = "main" := by decide +kernel
  obtain ⟨r₁, r₂, hmerge, hcheckout, -, -, -, hforward, -⟩ :=
    on_forward_after_merge (c := ⟨"one", "2024-01-01T00:00:04+00:00", false⟩) hs ht hne
  rw [hcurrent] at hforward
  refine ⟨hs, ht, hne, r₁, r₂, hmerge, hcheckout, hforward.2 (.inr ⟨["zero", "one"], rfl, ?_⟩)⟩
  rw [Distinguished]
  decide

def diverged : Recorder :=
  WorkTree.after .new [.commit "start" "2024-01-01T00:00:00+00:00", .createBranch "dev" "main",
    .commit "one" "2024-01-01T00:00:01+00:00", .checkout "main",
    .commit "two" "2024-01-01T00:00:02+00:00"]

/-- After the merge the branch that was merged is still refused as not being behind. -/
theorem forward_refused :
    diverged.history? "dev" = some ["start", "one"] ∧ diverged.current = "main" ∧
      diverged.history? "main" = some ["start", "two"] ∧
      ∃ r₁ r₂, on (WorkTree.merge "dev" (.withCommit ⟨"join", "2024-01-01T00:00:03+00:00", false⟩))
          diverged = (.ok (), r₁) ∧
        on (WorkTree.checkout "dev") r₁ = (.ok (), r₂) ∧
        on (WorkTree.merge "main" .fastForward) r₂ =
          (.error (.merge (.behind "dev" "main")), r₂) := by
  refine ⟨by decide +kernel, by decide +kernel, by decide +kernel, _, _,
    Prod.ext (by decide +kernel) rfl, Prod.ext (by decide +kernel) rfl, ?_⟩
  decide +kernel

end ReleaseHistory.Recorder
