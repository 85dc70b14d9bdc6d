import ReleaseHistory.Proofs.WorkTree.Preservation
import ReleaseHistory.Proofs.WorkTree.Stores

/-!
# Every store is well founded

In a store that is well founded parents come before their children, commits have names of their own,
and branches and tags are at commits that are there. Every call leaves all stores of a file tree so,
whether it succeeds or is refused, also if it writes a file into one of them, and also if two commits
come to have the same name.
-/

namespace ReleaseHistory

open Operation Git

/-! ### Stores -/

namespace Git.Store

variable {s t : Store} {objects more : List Encoded} {branch name : String} {n : Nat}
  {c : CommitObject}

/-- A store is sound, whichever objects it holds. -/
def Founded (s : Store) : Prop := ∃ objects, s.Sound objects

theorem Sound.mono (h : s.Sound objects) (hmore : objects ⊆ more) : s.Sound more :=
  { h with within := fun n c hc => hmore (h.within n c hc) }

theorem founded_new (branch : String) : (new branch).Founded := ⟨[], sound_new [] branch⟩

namespace Founded

theorem history (h : s.Founded) : s.history.Sound := by
  obtain ⟨_, hsound⟩ := h
  exact hsound.history

theorem tip?_lt (h : s.Founded) (htip : s.tip? branch = some n) : n < s.history.commits.size := by
  obtain ⟨_, hsound⟩ := h
  exact hsound.tip?_lt htip

theorem headCommit_lt (h : s.Founded) (hhead : s.headCommit = .ok (some n)) :
    n < s.history.commits.size := by
  obtain ⟨_, hsound⟩ := h
  exact hsound.headCommit_lt hhead

theorem of_same (h : s.Founded) (hhistory : t.history = s.history)
    (hbranches : t.branches = s.branches) (htags : t.tags = s.tags) : t.Founded := by
  obtain ⟨objects, hsound⟩ := h
  exact ⟨objects, Repository.sound_of_same hsound hhistory hbranches htags⟩

theorem setTip (h : s.Founded) (hn : n < s.history.commits.size) (name : String) :
    (s.setTip name n).Founded := by
  obtain ⟨objects, hsound⟩ := h
  exact ⟨objects, hsound.setTip hn name⟩

theorem createBranch (h : s.Founded) (hn : n < s.history.commits.size)
    (ht : s.createBranch? branch n = some t) : t.Founded := by
  obtain ⟨full, -, -, rfl⟩ := createBranch?_eq_some ht
  exact h.setTip hn full

theorem createTag {tag : TagObject} (h : s.Founded) (htarget : tag.target < s.history.commits.size)
    (ht : s.createTag? tag = some t) : t.Founded := by
  obtain ⟨objects, hsound⟩ := h
  exact ⟨objects, hsound.createTag htarget ht⟩

/-- A commit is added to a history, or another one of its name was there already. -/
theorem add (h : s.Founded) (hstorable : c.signature.isStorable = true)
    (hparents : ∀ p ∈ c.parents, p < s.history.commits.size) :
    Founded { s with history := (s.history.add c).2 } ∧
      (s.history.add c).1 < (s.history.add c).2.commits.size := by
  obtain ⟨objects, hsound⟩ := h
  rcases History.add_eq s.history c with ⟨hnew, hadd⟩ | ⟨n, hid, hadd⟩
  · rw [hadd]
    have hmore : s.Sound (s.history.encode c :: objects) :=
      hsound.mono (List.subset_cons_self _ _)
    refine ⟨⟨_, hmore.grow (hsound.history.push hstorable hparents hnew) ?_
      (History.extends_push s.history c)⟩, ?_⟩
    · exact hmore.within.push hsound.history hparents (List.mem_cons_self ..)
    · simp [History.push]
  · rw [hadd]
    refine ⟨⟨objects, hsound⟩, ?_⟩
    rw [← hsound.history.size_ids]
    exact (Array.getElem?_eq_some_iff.1 hid).1

theorem commit? (h : s.Founded) (hparents : ∀ p ∈ c.parents, p < s.history.commits.size)
    {id : String} (ht : s.commit? c = some (id, t)) : t.Founded := by
  simp only [Store.commit?, Option.ite_none_right_eq_some, Bool.and_eq_true] at ht
  obtain ⟨⟨⟨hstorable, -⟩, -⟩, ht⟩ := ht
  obtain ⟨hadded, hn⟩ := h.add hstorable hparents
  obtain ⟨u, hadvance, hu⟩ := Option.map_eq_some_iff.1 ht
  obtain ⟨-, rfl⟩ := Prod.mk.inj hu
  rcases advance?_eq_some hadvance with ⟨name, -, rfl⟩ | ⟨hex, -, rfl⟩
  · exact hadded.setTip hn name
  · exact hadded.of_same rfl rfl rfl

/-- A file of the store that is written names a commit that is there, or what is checked out. -/
theorem writeFile? {path text : String} (h : s.Founded) (ht : s.writeFile? path text = some t) :
    t.Founded := by
  unfold Store.writeFile? at ht
  split at ht
  · cases ht
    exact h.of_same rfl rfl rfl
  · split at ht
    · split at ht
      · obtain ⟨n, hn, rfl⟩ := Option.map_eq_some_iff.1 ht
        obtain ⟨_, hsound⟩ := h
        exact Founded.setTip ⟨_, hsound⟩ (hsound.find?_lt hn) path
      · cases ht
    · cases ht

end Founded

end Git.Store

/-! ### Calls -/

namespace Repository

variable {r : Repository} {s t : Store} {branch name start message time : String}
  {call : WorkTree.Call}

/-- Every store in the files of a repository is well founded, its own among them. -/
def Founded (r : Repository) : Prop := r.files.EveryStore fun _ s => s.Founded

theorem after_of_storeless [Git.Merger] (hs : r.store? = none)
    (hcall : ∀ path text, call ≠ .writeText path text) : call.after r = r := by
  have hstore := on_store_of_none hs
  by_cases hasks : call.Asks
  · exact after_of_asks hasks r
  cases call with
  | writeText path text => exact absurd rfl (hcall path text)
  | createBranch name start =>
    simp only [WorkTree.Call.after, WorkTree.createBranch, createBranch, tip, on_bind, hstore]
  | checkout name => simp only [WorkTree.Call.after, WorkTree.checkout, checkout, on_bind, hstore]
  | commit message time =>
    simp only [WorkTree.Call.after, WorkTree.commit, commit, stage, on_bind, on_get, hstore]
  | merge branch mode =>
    simp only [WorkTree.Call.after, WorkTree.merge, merge, currentBranch, on_bind, hstore]
  | tag name message time =>
    simp only [WorkTree.Call.after, WorkTree.tag, tag, headCommit, on_bind, hstore]
  | _ => exact absurd trivial hasks

namespace Founded

theorem store (h : r.Founded) (hs : r.store? = some s) : s.Founded :=
  h _ s (FileTree.mem_entries_of_own? (storeAt?_eq_some.1 hs))

theorem withStore (h : r.Founded) (ht : t.Founded) : (r.withStore t).Founded := by
  refine FileTree.EveryStore.put h fun u hu => ?_
  obtain rfl := Entry.store.inj hu
  exact ht

theorem showing (h : r.Founded) (hs : s.Founded) (snapshot : Snapshot) :
    (r.showing s snapshot).Founded := by
  have hfiles : Founded { r with
      files := replaceFiles r.root (s.headSnapshot ++ s.index) snapshot r.files } :=
    everyStore_replaceFiles r.root _ snapshot h
  exact hfiles.withStore (hs.of_same rfl rfl rfl)

theorem checkoutHead (h : r.Founded) (hs : r.store? = some s) : (on checkoutHead r).2.Founded := by
  rw [on_checkoutHead hs]
  split
  · exact h
  · exact h
  · exact h.showing (h.store hs) _

theorem checkout (h : r.Founded) (hs : r.store? = some s) : (on (checkout name) r).2.Founded := by
  rw [on_checkout hs]
  split
  · exact h
  · split
    · exact h
    · rename_i snapshot _
      have hshown := h.showing (h.store hs) snapshot
      rw [on_setStore?]
      split
      · rename_i u hu
        obtain ⟨head, -, rfl⟩ := Option.map_eq_some_iff.1 hu
        exact hshown.withStore ((h.store hs).of_same rfl rfl rfl)
      · exact hshown

theorem createBranch (h : r.Founded) (hs : r.store? = some s) :
    (on (createBranch name start) r).2.Founded := by
  rw [on_createBranch hs]
  split
  · exact h
  · rename_i n hn
    split
    · exact h
    · rename_i t ht
      have htip := (h.store hs).tip?_lt (tipOf_eq_ok.1 hn)
      exact (h.withStore ((h.store hs).createBranch htip ht)).checkout (store?_withStore r t)

theorem commit (h : r.Founded) (hs : r.store? = some s) :
    (on (commit message time) r).2.Founded := by
  rw [on_commit hs]
  split
  · exact h
  · rename_i index _
    have hstaged : Store.Founded { s with index := index } := (h.store hs).of_same rfl rfl rfl
    split
    · exact h.withStore hstaged
    · rename_i c hobject
      rw [on_addCommit (store?_withStore r _)]
      split
      · rename_i id t hcommit
        obtain ⟨_, hsound⟩ := h.store hs
        have hparents := commitObject_parents_lt hsound hobject
        exact (h.withStore hstaged).withStore (hstaged.commit? hparents hcommit)
      · exact h.withStore hstaged

theorem fastForward [Git.Merger] (h : r.Founded) (hs : r.store? = some s) :
    (on (merge branch .fastForward) r).2.Founded := by
  rw [on_fastForward hs]
  split
  · exact h
  · split
    · exact h
    · exact h
    · rename_i ours theirs _ htheirs
      split_ifs
      · exact h
      · exact h
      · split
        · exact h
        · rename_i full _
          have hmoved := (h.store hs).setTip ((h.store hs).tip?_lt (tipOf_eq_ok.1 htheirs)) full
          exact (h.withStore hmoved).checkoutHead (store?_withStore r _)

theorem mergeWithCommit [Git.Merger] {c : Commit} (h : r.Founded) (hs : r.store? = some s) :
    (on (merge branch (.withCommit c)) r).2.Founded := by
  rw [on_mergeWithCommit hs]
  split
  · exact h
  · rename_i object hobject
    split
    · exact h
    · rename_i id t hcommit
      obtain ⟨_, hsound⟩ := h.store hs
      have hmerged := (h.store hs).commit? (mergeObject_parents_lt hsound hobject) hcommit
      exact (h.withStore hmerged).checkoutHead (store?_withStore r t)

theorem tag (h : r.Founded) (hs : r.store? = some s) :
    (on (tag name message time) r).2.Founded := by
  rw [on_tag hs]
  split
  · exact h
  · exact h
  · rename_i n hn
    split
    · exact h
    · split
      · exact h
      · split
        · exact h
        · rename_i t ht
          exact h.withStore ((h.store hs).createTag ((h.store hs).headCommit_lt hn) ht)

theorem writeText [Git.Merger] (h : r.Founded) (path text : String) :
    (on (WorkTree.writeText path text) r).2.Founded := by
  have hon : on (WorkTree.writeText path text) r =
      on (onFiles fun root => FileTree.writeText root path text) r := rfl
  rw [hon, on_onFiles]
  exact FileTree.preserves_writeText r.root path (fun _ _ _ _ hs hwritten => hs.writeFile? hwritten)
    r.files h

theorem after [Git.Merger] (h : r.Founded) (call : WorkTree.Call) : (call.after r).Founded := by
  by_cases hasks : call.Asks
  · rwa [after_of_asks hasks]
  by_cases hwrite : ∃ path text, call = .writeText path text
  · obtain ⟨path, text, rfl⟩ := hwrite
    exact h.writeText path text
  cases hs : r.store? with
  | none => rwa [after_of_storeless hs fun path text heq => hwrite ⟨path, text, heq⟩]
  | some s =>
    cases call with
    | createBranch name start => exact h.createBranch hs
    | checkout name => exact h.checkout hs
    | commit message time => exact h.commit hs
    | merge branch mode =>
      cases mode with
      | fastForward => exact h.fastForward hs
      | withCommit c => exact h.mergeWithCommit hs
    | tag name message time => exact h.tag hs
    | writeText path text => exact absurd ⟨path, text, rfl⟩ hwrite
    | _ => exact absurd trivial hasks

theorem afterAll [Git.Merger] (h : r.Founded) (calls : List WorkTree.Call) :
    (WorkTree.after r calls).Founded :=
  List.foldlRecOn calls _ h fun _ hbefore call _ => hbefore.after call

end Founded

/-- A repository that is made in a file tree whose stores are well founded has only such stores. -/
theorem founded_create {t u : FileTree} {base : Location} {path : String} {i : Identity}
    (ht : t.EveryStore fun _ s => s.Founded) (hcreate : on (create base path i) t = (.ok r, u)) :
    r.Founded := by
  obtain ⟨v, hdirectory, -, hfiles, hu⟩ := create_eq_ok hcreate
  obtain ⟨-, l, parts, -, hon⟩ := FileTree.createDirectory_eq_ok hdirectory
  have hmade := FileTree.preserves_createDirectories l parts t ht
  rw [hon] at hmade
  rw [Founded, hfiles]
  rcases hu with rfl | rfl
  · exact hmade
  · refine hmade.put fun s hs => ?_
    obtain rfl := Entry.store.inj hs
    exact Store.founded_new mainBranch

end Repository

end ReleaseHistory
