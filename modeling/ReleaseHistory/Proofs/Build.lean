import ReleaseHistory.Build
import ReleaseHistory.Proofs.WorkTree.Preservation

/-!
# Building from a definition

A definition is built if it passes the check, a repository can be made and all of it can be replayed.
Where there was no store, the repository is a new one.
-/

namespace ReleaseHistory

open Operation

namespace Repository

variable {t u : FileTree} {base : Location} {path : String} {i : Git.Identity} {r : Repository}

theorem store?_create (ht : t.WellFormed) (h : on (create base path i) t = (.ok r, u))
    (hnew : t.get? (storeLocation r.root) = none) : r.store? = some (.new mainBranch) := by
  have hopened : ∀ {root : Location} {w : FileTree}, opened i root w = (.ok r, u) →
      r.root = root ∧ r.files = w := by
    intro root w hw
    unfold opened at hw
    split at hw
    · cases hw
    · cases hw
      exact ⟨rfl, rfl⟩
  have hput : ∀ {root : Location} {v : FileTree},
      opened i root (v.put (storeLocation root) (.store (.new mainBranch))) = (.ok r, u) →
        r.store? = some (.new mainBranch) := by
    intro root v hw
    obtain ⟨hroot, hfiles⟩ := hopened hw
    rw [store?, storeAt?_eq_some, hroot, hfiles, FileTree.own?_put, if_pos rfl]
  rw [on_create] at h
  split at h
  · cases h
  · rename_i root v hdirectory
    have hseen := (FileTree.grown_createDirectory ht hdirectory).seen (storeLocation root)
    split at h
    · cases h
    · rename_i s hstore
      rw [hstore, ← (hopened h).1, hnew] at hseen
      rcases hseen with hsame | ⟨-, hdirectory, -⟩
      · cases hsame
      · cases hdirectory
    · exact hput h

theorem mount_create (ht : t.WellFormed) (h : on (create base path i) t = (.ok r, u)) :
    r.files.mount = t.mount := by
  obtain ⟨v, hdirectory, -, hfiles, hu⟩ := create_eq_ok h
  have hmount := (FileTree.grown_createDirectory ht hdirectory).mount
  rw [hfiles]
  rcases hu with rfl | rfl
  · exact hmount
  · exact hmount

theorem on_replay [Git.Merger] (d : Definition) (base : Location) (path : String) (i : Git.Identity)
    (t : FileTree) :
    on (replay d base path i) t = match on (create base path i) t with
      | (.error e, v) => (.error e, v)
      | (.ok r, _) => ((on (Replay.run d) r).1, (on (Replay.run d) r).2.files) := by
  rw [replay, on_bind]
  rcases on (create base path i) t with ⟨result, v⟩
  cases result with
  | error e => rfl
  | ok r =>
    have hrun : (Replay.run d).run r = on (Replay.run d) r := rfl
    simp only [hrun]
    rcases on (Replay.run d) r with ⟨result, r'⟩
    cases result <;> rfl

end Repository

namespace Definition

variable {d : Definition} {t u : FileTree} {base : Location} {path : String} {i : Git.Identity}
  {r : Repository}

theorem build_eq_ok [Git.Merger] [Pattern.Engine]
    (hcreate : on (Repository.create base path i) t = (.ok r, u)) {w : FileTree} :
    on (d.build base path i) t = (.ok (), w) ↔
      d.check = .ok () ∧ ∃ r', on (Replay.run d) r = (.ok (), r') ∧ w = r'.files := by
  rw [build]
  cases d.check with
  | error e => simp
  | ok _ =>
    simp only [Repository.on_replay, hcreate]
    rcases on (Replay.run d) r with ⟨result, r'⟩
    cases result <;> simp [eq_comm]

end Definition

end ReleaseHistory
