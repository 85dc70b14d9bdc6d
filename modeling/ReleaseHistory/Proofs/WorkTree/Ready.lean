import ReleaseHistory.Proofs.Git.Store
import ReleaseHistory.Proofs.WorkTree.Tidy

/-!
# Repositories that are ready

A repository is ready if it has a store and its directory is tidy. What is asked of it succeeds as
far as it depends on the files: all can be read, written and committed.
-/

namespace ReleaseHistory

theorem FileTree.put_put (t : FileTree) (l : Location) (e e' : Entry) :
    (t.put l e).put l e' = t.put l e' := by
  simp [FileTree.put]

namespace Repository

open Operation Git
open FileTree (Named Plain Slashless Tidy)

/-- A repository with a store in a tidy directory. -/
structure Ready (s : Store) (r : Repository) : Prop where
  store : r.store? = some s
  tidy : Tidy r.root r.files
  slashless : r.files.Slashless
  named : Named r.root

def withFile (r : Repository) (name text : String) : Repository :=
  { r with files := r.files.put (r.root ++ [name]) (.text text) }

variable {s : Store} {r : Repository} {name message time full text : String} {signature : Signature}
  {n : Nat}

theorem withStore_withStore (s t : Store) : (r.withStore s).withStore t = r.withStore t := by
  rw [withStore, withStore, withStore, FileTree.put_put]

theorem named_storeLocation {root : Location} (h : Named root) : Named (storeLocation root) := by
  rw [storeLocation, FileTree.named_append]
  refine ⟨h, fun part hpart => ?_⟩
  rw [List.mem_singleton.1 hpart]
  decide

theorem Ready.withStore (h : Ready s r) (t : Store) : Ready t (r.withStore t) where
  store := store?_withStore r t
  tidy := h.tidy.put (.inl rfl)
  slashless := h.slashless.put (named_storeLocation h.named)
  named := h.named

/-! ### Files -/

theorem Ready.withFile (h : Ready s r) (hname : Plain name) (hstore : name ≠ FileTree.storeName)
    (text : String) : Ready s (r.withFile name text) where
  store := by
    rw [store?, storeAt?_eq_some]
    have hother : storeLocation r.root ≠ r.root ++ [name] := by
      rw [storeLocation, Ne, List.append_cancel_left_eq, List.singleton_inj]
      exact hstore.symm
    exact (FileTree.own?_put.trans (if_neg hother)).trans (storeAt?_eq_some.1 h.store)
  tidy := h.tidy.put (.inr ⟨text, rfl⟩)
  slashless := by
    apply h.slashless.put
    rw [FileTree.named_append]
    exact ⟨h.named, fun part hpart => by rw [List.mem_singleton.1 hpart]; exact hname.no_slash⟩
  named := h.named

theorem Ready.on_writeText [Git.Merger] (h : Ready s r) (hname : Plain name)
    (hstore : name ≠ FileTree.storeName) (text : String) : on (WorkTree.writeText name text) r =
    (.ok (), r.withFile name text) := by
  have hwrite : on (onFiles fun root => FileTree.writeText root name text) r =
      (.ok (), r.withFile name text) := by
    rw [on_onFiles, h.tidy.on_writeText hname hstore]
    rfl
  exact hwrite

theorem Ready.exists_readText [Git.Merger] (h : Ready s r) (hname : Plain name)
    (hstore : name ≠ FileTree.storeName) : ∃ found, on (WorkTree.readText name) r = (.ok found, r) := by
  obtain ⟨found, hfound⟩ := h.tidy.exists_readText? hname hstore
  have hread : on (onFiles fun root => FileTree.readText? root name) r = (.ok found, r) := by
    rw [on_onFiles, hfound]
  exact ⟨found, hread⟩

theorem Ready.on_readText [Git.Merger] (h : Ready s r) (hname : Plain name)
    (hown : r.files.own? (r.root ++ [name]) = some (.text text)) :
    on (WorkTree.readText name) r = (.ok (some text), r) := by
  have hread : on (onFiles fun root => FileTree.readText? root name) r = (.ok (some text), r) := by
    rw [on_onFiles, FileTree.on_readText?, FileTree.find?, h.tidy.locate?_eq hname, Option.bind_some,
      h.tidy.get?_eq, hown]
    rfl
  exact hread

theorem Ready.on_readText_of_none [Git.Merger] (h : Ready s r) (hname : Plain name)
    (hown : r.files.own? (r.root ++ [name]) = none) :
    on (WorkTree.readText name) r = (.ok none, r) := by
  have hread : on (onFiles fun root => FileTree.readText? root name) r = (.ok none, r) := by
    rw [on_onFiles, FileTree.on_readText?, FileTree.find?, h.tidy.locate?_eq hname, Option.bind_some,
      h.tidy.get?_eq, hown]
    rfl
  exact hread

/-! ### Checking out -/

theorem slashless_replaceFiles {root : Location} {t : FileTree} {before after : Snapshot}
    (hroot : Named root) (hbefore : before.Flat) (hafter : after.Flat) (ht : t.Slashless) :
    (replaceFiles root before after t).Slashless := by
  rw [replaceFiles_eq]
  have hgone : ((before.filter fun e => (after.get? e.1).isNone).foldl
      (fun t e => removeFile root e.1 t) t).Slashless := by
    refine List.foldlRecOn (motive := FileTree.Slashless) _ _ ht fun t ht entry hentry => ?_
    rw [removeFile, splitOn_flat (hbefore entry (List.mem_filter.1 hentry).1)]
    split
    · exact ht.erase _
    · exact ht
  refine List.foldlRecOn (motive := FileTree.Slashless) _ _ hgone fun t ht entry hentry => ?_
  rw [writeFile, splitOn_flat (hafter entry hentry)]
  apply (ht.erase _).put
  rw [FileTree.named_append]
  refine ⟨hroot, fun part hpart => ?_⟩
  rw [List.mem_singleton.1 hpart]
  exact hafter entry hentry

theorem Ready.showing (h : Ready s r) {snapshot : Snapshot} (hbefore : (s.headSnapshot ++ s.index).Flat)
    (hafter : snapshot.Flat) : Ready { s with index := snapshot } (r.showing s snapshot) where
  store := store?_withStore _ _
  tidy := (tidy_replaceFiles hbefore hafter h.tidy).put (.inl rfl)
  slashless := (slashless_replaceFiles h.named hbefore hafter h.slashless).put
    (named_storeLocation h.named)
  named := h.named

/-! ### Commits and tags -/

theorem Ready.exists_commit (h : Ready s r) (hhead : s.head = .branch full)
    (hroom : Store.hasRoom full ((s.branches.map (·.1)).filter (· ≠ full)) = true)
    (hsignature : signatureAt r.identity time = .ok signature)
    (hstorable : signature.isStorable = true) (hmessage : '\x00' ∉ message.toList) :
    ∃ index id, r.stagedFiles s = some index ∧ index.Flat ∧
      commitObject r.identity s index message time =
        .ok ⟨index, (s.commitOf? full).toList, signature, message⟩ ∧
      on (commit message time) r = (.ok id, r.withStore (({ s with index := index } : Store).committed
        full ⟨index, (s.commitOf? full).toList, signature, message⟩)) := by
  obtain ⟨index, hindex, hflat⟩ := exists_stagedFiles h.tidy h.slashless s
  have hparent : s.headCommit = .ok (s.commitOf? full) := by rw [Store.headCommit, hhead]
  have hobject : commitObject r.identity s index message time =
      .ok ⟨index, (s.commitOf? full).toList, signature, message⟩ := by
    rw [commitObject, hsignature, Except.ok_bind, hparent, Except.ok_bind]
    rfl
  have hfirst : (s.commitOf? full).toList.head? = s.commitOf? full := by
    cases s.commitOf? full <;> rfl
  obtain ⟨id, hcommit⟩ := Store.commit?_eq_committed (s := { s with index := index })
    (c := ⟨index, (s.commitOf? full).toList, signature, message⟩) hhead hroom hstorable hmessage hfirst
  refine ⟨index, id, hindex, hflat, hobject, ?_⟩
  rw [on_commit h.store, hindex]
  dsimp only
  rw [hobject]
  dsimp only
  rw [on_addCommit (store?_withStore r _), hcommit]
  dsimp only
  rw [withStore_withStore]

theorem Ready.on_tag (h : Ready s r) {key : String} (hhead : s.headCommit = .ok (some n))
    (hsignature : signatureAt r.identity time = .ok signature)
    (hstorable : signature.isStorable = true) (hmessage : '\x00' ∉ message.toList)
    (hkey : RefName.tag? name = some key) (hbegin : RefName.mayBegin name = true)
    (hroom : Store.hasRoom key (s.tags.map (·.1)) = true) :
    on (tag name message time) r =
      (.ok (), r.withStore { s with tags := (key, ⟨name, n, signature, message⟩) :: s.tags }) := by
  have hnull : message.toList.contains '\x00' = false := by simpa using hmessage
  have hcreate : s.createTag? ⟨name, n, signature, message⟩ =
      some { s with tags := (key, ⟨name, n, signature, message⟩) :: s.tags } := by
    simp only [Store.createTag?, hkey, hbegin, hroom, Bool.and_self, if_true]
  rw [Repository.on_tag h.store, hhead]
  dsimp only
  rw [hsignature]
  dsimp only
  rw [hstorable, hnull, hcreate]
  rfl

end Repository

end ReleaseHistory
