import ReleaseHistory.Proofs.WorkTree.Included
import ReleaseHistory.Proofs.WorkTree.Preservation
import ReleaseHistory.Proofs.WorkTree.Stores

/-!
# Files below the root

A file that was written below the root, outside of the store, lies there until it is written again:
no other write takes it away. A commit stages it as it was written last. The trees that are staged in
a run are those that its commits are made of.
-/

namespace ReleaseHistory.Repository

open Operation Git Traced
open FileTree (Lies Named Plain Retains)

variable {start r r' : Repository} {path text : String} {way : Location}

/-! ### Staged trees -/

def stagedFor? (r : Repository) : WorkTree.Call → Option Snapshot
  | .commit _ _ => r.store?.bind r.stagedFiles
  | _ => none

def stagedIn [Git.Merger] (r : Repository) : List WorkTree.Call → List Snapshot
  | [] => []
  | call :: calls => (r.stagedFor? call).toList ++ stagedIn (call.after r) calls

theorem stagedIn_append [Git.Merger] (r : Repository) (calls more : List WorkTree.Call) :
    r.stagedIn (calls ++ more) = r.stagedIn calls ++ (WorkTree.after r calls).stagedIn more := by
  induction calls generalizing r with
  | nil => rfl
  | cons call calls ih =>
    rw [List.cons_append, stagedIn, stagedIn, ih, List.append_assoc]
    rfl

section Sequences

variable {α β : Type} {x : Operation (Traced Repository) α} {y : Operation Repository α}
  {f : α → Operation (Traced Repository) β} {g : α → Operation Repository β} {a : α} {tree : Snapshot}

theorem mem_stagedIn_left [Git.Merger] (h : tree ∈ r.stagedIn (callsOf x r)) (hx : Traces x y)
    (hf : ∀ a, Traces (f a) (g a)) : tree ∈ r.stagedIn (callsOf (x >>= f) r) := by
  rcases hy : on y r with ⟨result, r'⟩
  cases result with
  | error fault => rwa [hx.callsOf_bind_of_error hy]
  | ok a =>
    rw [hx.callsOf_bind_of_ok hf hy, stagedIn_append]
    exact List.mem_append_left _ h

theorem mem_stagedIn_right [Git.Merger] (h : tree ∈ r'.stagedIn (callsOf (f a) r'))
    (hx : Traces x y) (hf : ∀ a, Traces (f a) (g a)) (hy : on y r = (.ok a, r')) :
    tree ∈ r.stagedIn (callsOf (x >>= f) r) := by
  rw [hx.callsOf_bind_of_ok hf hy, stagedIn_append, hx.after_callsOf, hy]
  exact List.mem_append_right _ h

end Sequences

/-! ### Files below the root -/

/-- A path leads to a place below the root if all its parts lead on. -/
def LeadsTo (start : Repository) (path : String) (way : Location) : Prop :=
  way ≠ [] ∧ start.files.destination? start.root path = some (start.root ++ way)

theorem leadsTo_iff_of_plain (hmount : start.files.mount.startsWith "/" = true) {name : String}
    (hname : Plain name) : start.LeadsTo name way ↔ way = [name] := by
  have hto : start.files.destination? start.root name = some (start.root ++ [name]) := by
    rw [FileTree.destination?, hname.origin?_eq hmount, ← hname.go_eq start.root]
    rfl
  rw [LeadsTo, hto, Option.some.injEq, List.append_cancel_left_eq]
  constructor
  · exact fun h => h.2.symm
  · rintro rfl
    exact ⟨List.cons_ne_nil name [], rfl⟩

theorem LeadsTo.outside (h : start.LeadsTo path way) (hpath : start.KeepsOut path) :
    ¬storeLocation start.root <+: start.root ++ way :=
  hpath _ h.2

/-- A repository in the place of another one, without a store below its root but its own. -/
structure Placed (start r : Repository) : Prop where
  root : r.root = start.root
  named : Named start.root
  mount : r.files.mount = start.files.mount
  stores : r.files.StoresIn fun l => start.root <+: l → l = storeLocation start.root

theorem Placed.writeText [Git.Merger] (hp : Placed start r)
    (h : on (WorkTree.writeText path text) r = (.ok (), r')) :
    on (FileTree.writeText start.root path text) r.files = (.ok (), r'.files) ∧ Placed start r' ∧
      ∃ l, start.files.destination? start.root path = some l ∧ Retains l r.files r'.files := by
  have hwrite : on (onFiles fun root => FileTree.writeText root path text) r = (.ok (), r') := h
  rw [on_onFiles, hp.root] at hwrite
  rcases hon : on (FileTree.writeText start.root path text) r.files with ⟨result, files⟩
  rw [hon] at hwrite
  cases hwrite
  obtain ⟨l, hl, hretains⟩ := FileTree.retains_writeText hp.named hon
  rw [FileTree.destination?_congr hp.mount] at hl
  refine ⟨rfl, ⟨rfl, hp.named, hretains.mount.trans hp.mount, ?_⟩, l, hl, hretains⟩
  intro k s hs
  obtain ⟨s', hs'⟩ := hretains.stores k s hs
  exact hp.stores k s' hs'

/-- What is written is there, outside of the store and in directories. A store above the root takes no
file below the root as one of its own. -/
theorem Placed.lies [Git.Merger] (hp : Placed start r)
    (h : on (WorkTree.writeText path text) r = (.ok (), r')) (hway : start.LeadsTo path way)
    (hout : ¬storeLocation start.root <+: start.root ++ way)
    (htext : ∀ hex, Head.ofText text ≠ .detached hex) : Lies r'.files start.root way text := by
  obtain ⟨hwrite, -, -⟩ := hp.writeText h
  apply FileTree.lies_of_writeText hp.named hwrite
  · rw [FileTree.destination?_congr hp.mount]
    exact hway.2
  intro m s rest hs heq s'
  rcases List.append_eq_append_iff.1 heq with ⟨rest', rfl, -⟩ | ⟨above, hroot, rfl⟩
  · -- a store below the root is the one of the repository
    rw [hp.stores _ s hs (List.prefix_append _ _)] at heq
    exact absurd ⟨rest, heq.symm⟩ hout
  · cases above with
    | nil =>
      rw [List.append_nil] at hroot
      rw [← hroot] at hs
      have hown := hp.stores _ s hs List.prefix_rfl
      simp [storeLocation] at hown
    | cons part above =>
      obtain ⟨next, rest, hmore⟩ :=
        List.exists_cons_of_ne_nil (List.append_ne_nil_of_right_ne_nil above hway.1)
      apply Store.writeFile?_eq_none _ htext
      rw [List.cons_append, hmore, String.intercalate_cons_cons]
      intro hhead
      have hslash : '/' ∈ Store.headFile.toList := by
        rw [← hhead]
        simp
      exact absurd hslash (by decide)

theorem Placed.keeps [Git.Merger] {other : String} (hp : Placed start r)
    (h : on (WorkTree.writeText path other) r = (.ok (), r')) (hlies : Lies r.files start.root way text)
    (hway : way ≠ []) (hout : ¬storeLocation start.root <+: start.root ++ way)
    (hother : ¬start.LeadsTo path way) : Lies r'.files start.root way text := by
  obtain ⟨-, -, l, hl, hretains⟩ := hp.writeText h
  apply hlies.retained hretains
  · rintro rfl
    exact hother ⟨hway, hl⟩
  · intro s hs
    exact hout (hp.stores _ s hs (List.prefix_append _ _) ▸ List.prefix_rfl)

end ReleaseHistory.Repository
