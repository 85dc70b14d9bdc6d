import ReleaseHistory.Git.Merger
import ReleaseHistory.Proofs.Git.ThreeWay

/-!
# What is relied on in a merger

A merger that is relied on makes up no path and nothing that could not be a directory. Where no file
was moved it merges path by path, and where no attributes say how, it merges line by line what both
sides have changed. The merger that is built in is such a one.
-/

namespace ReleaseHistory.Git

/-- The name of the files that say in which form texts are stored, if not as they are written. -/
def attributesFile : String := ".gitattributes"

/-- Nothing says how single paths are to be treated: no file of attributes lies in a work tree or in
the index, and none and no settings are with the store. -/
structure Unattributed (t : FileTree) (root : Location) (s : Store) : Prop where
  files : ∀ way, t.get? (root ++ way ++ [attributesFile]) = none
  index : ∀ entry ∈ s.index, (Text.splitOn '/' entry.1).getLast? ≠ some attributesFile
  own : t.get? (root ++ [FileTree.storeName, "info", "attributes"]) = none
  settings : t.get? (root ++ [FileTree.storeName, "config"]) = none

open Merger (merge)

/-- What is known of merges, as far as a merge is one without conflicts. -/
class LawfulMerger [Merger] : Prop where
  path_mem {t : FileTree} {root : Location} {s : Store} {a b : Nat} {entry : String × String} :
    (merge t root s a b).conflicts = [] → entry ∈ (merge t root s a b).snapshot →
      entry.1 ∈ (s.history.snapshot a).map (·.1) ∨ entry.1 ∈ (s.history.snapshot b).map (·.1)
  coherent {t : FileTree} {root : Location} {s : Store} {a b : Nat} :
    (merge t root s a b).conflicts = [] → (s.history.snapshot a).Coherent →
      (s.history.snapshot b).Coherent → (merge t root s a b).snapshot.Coherent
  /-- Where one commit comes from the other, it alone has changes. -/
  forward {t : FileTree} {root : Location} {s : Store} {a b : Nat} : s.history.Sound →
    s.history.Ancestor a b → (s.history.snapshot a).Coherent → (s.history.snapshot b).Coherent →
      merge t root s a b = ⟨s.history.snapshot b, []⟩
  merges {t : FileTree} {root : Location} {s : Store} {a b : Nat} : s.history.Sound →
    (merge t root s a b).conflicts = [] →
      s.history.Merges (Unattributed t root s) a b (merge t root s a b).snapshot

namespace Merger

section

attribute [local instance] builtIn

theorem lawful_builtIn : LawfulMerger where
  path_mem _ hentry := Snapshot.mem_merge hentry
  coherent _ ha _ := Snapshot.coherent_merge ha.ordered _ _
  forward hs hab ha hb := History.merge_of_ancestor hs ha hb hab
  merges hs hclean := History.merges_merge hs hclean

end

/-- What no path of two commits goes through, no path of their merge goes through. -/
theorem without_merge [Merger] [LawfulMerger] {t : FileTree} {root : Location} {s : Store}
    {a b : Nat} {name : String} (hclean : (merge t root s a b).conflicts = [])
    (ha : Snapshot.Without name (s.history.snapshot a))
    (hb : Snapshot.Without name (s.history.snapshot b)) :
    Snapshot.Without name (merge t root s a b).snapshot := by
  intro entry hentry
  rcases LawfulMerger.path_mem hclean hentry with h | h
  · exact ha.of_paths h
  · exact hb.of_paths h

end Merger

end ReleaseHistory.Git
