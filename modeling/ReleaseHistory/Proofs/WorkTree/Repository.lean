import ReleaseHistory.Proofs.WorkTree.Calls
import ReleaseHistory.Proofs.WorkTree.Staging

/-!
# What a repository does

Each operation of a repository either succeeds with a definite result or is refused with a definite
fault, and leaves a definite repository in both cases. All of it is told by the store and the files.
-/

namespace ReleaseHistory.Repository

open Operation Git

variable {r : Repository} {s : Store} {snapshot : Snapshot} {branch name start message time : String}
  {n : Nat}

/-! ### The store of a repository -/

/-- The store of a repository, if it has one. -/
def store? (r : Repository) : Option Store := storeAt? r.files r.root

def withStore (r : Repository) (s : Store) : Repository :=
  { r with files := r.files.put (storeLocation r.root) (.store s) }

@[simp] theorem withStore_root : (r.withStore s).root = r.root := rfl

@[simp] theorem withStore_identity : (r.withStore s).identity = r.identity := rfl

@[simp] theorem store?_withStore (r : Repository) (s : Store) : (r.withStore s).store? = some s := by
  rw [store?, storeAt?_eq_some]
  exact (FileTree.own?_put).trans (if_pos rfl)

theorem on_store (hs : r.store? = some s) : on store r = (.ok s, r) := by
  have hstore : storeAt? r.files r.root = some s := hs
  simp only [store, on_bind, on_get, hstore, on_pure]

theorem on_store_of_none (hs : r.store? = none) : on store r = (.error .store, r) := by
  have hstore : storeAt? r.files r.root = none := hs
  simp only [store, on_bind, on_get, hstore, on_throw]

theorem on_setStore? (r : Repository) (found : Option Store) :
    on (setStore? found) r = match found with
      | some s => (.ok (), r.withStore s)
      | none => (.error .store, r) := by
  cases found <;> rfl

/-- A repository as it is opened, unless its identity cannot be used. -/
def opened (i : Identity) (root : Location) (t : FileTree) : Except Fault Repository × FileTree :=
  if i.name.toList.contains '\x00' || i.email.toList.contains '\x00' then (.error .store, t)
  else (.ok ⟨t, root, i⟩, t)

theorem on_create (base : Location) (path : String) (i : Identity) (t : FileTree) :
    on (create base path i) t = match on (FileTree.createDirectory base path) t with
      | (.error e, v) => (.error e, v)
      | (.ok root, v) =>
        match v.get? (storeLocation root) with
        | some (.text _) => (.error .store, v)
        | some (.store _) => opened i root v
        | _ => opened i root (v.put (storeLocation root) (.store (.new mainBranch))) := by
  have hopened : ∀ root w, on (do
      if (i.name.toList.contains '\x00' || i.email.toList.contains '\x00') = true then
        throw Fault.store
      return ⟨← get, root, i⟩ : Operation FileTree Repository) w = opened i root w := by
    intro root w
    unfold opened
    split
    · rfl
    · rfl
  rw [create, on_bind]
  rcases on (FileTree.createDirectory base path) t with ⟨result, v⟩
  cases result with
  | error e => rfl
  | ok root =>
    simp only [on_bind, on_get]
    rcases v.get? (storeLocation root) with _ | _ | text | s
    · exact hopened root _
    · exact hopened root _
    · rfl
    · exact hopened root v

theorem on_onFiles {α : Type} (f : Location → Operation FileTree α) (r : Repository) :
    on (onFiles f) r =
      ((on (f r.root) r.files).1, { r with files := (on (f r.root) r.files).2 }) := by
  have hrun : (f r.root).run r.files = on (f r.root) r.files := rfl
  simp only [onFiles, on_bind, on_get, hrun]
  rcases on (f r.root) r.files with ⟨result, files⟩
  cases result <;> rfl

/-! ### What commits are made of -/

/-- The signature of an identity at a time that is given as a text. -/
def signatureAt (i : Identity) (time : String) : Except Fault Signature :=
  match Time.Timestamp.ofText time with
  | .error e => .error e
  | .ok t =>
    match Signature.make i t with
    | some s => .ok s
    | none => .error .store

theorem signatureAt_of_parse {i : Identity} {time : String} {t : Time.Timestamp}
    (ht : Time.Timestamp.parse time = .ok t) : signatureAt i time = match Signature.make i t with
      | some s => .ok s
      | none => .error .store := by
  rw [signatureAt, Time.Timestamp.ofText, ht]
  rfl

theorem on_signature (r : Repository) (time : String) :
    on (signature time) r = (signatureAt r.identity time, r) := by
  rw [signatureAt, signature, on_bind]
  cases Time.Timestamp.ofText time with
  | error e => rfl
  | ok t =>
    have hlift : on (liftM (.ok t : Except Fault Time.Timestamp) : Operation Repository _) r =
        (.ok t, r) := rfl
    rw [hlift]
    simp only [on_bind, on_get]
    cases Signature.make r.identity t <;> rfl

def stagedFiles (r : Repository) (s : Store) : Option Snapshot :=
  (staged r.files r.root s.index ((r.files.entries.map (·.1.length)).foldl max 0 + 1)
    [ownRules r.files r.root] false []).map Snapshot.ofList

theorem on_stage (hs : r.store? = some s) :
    on stage r = match r.stagedFiles s with
      | some index => (.ok index, r.withStore { s with index := index })
      | none => (.error .store, r) := by
  simp only [stage, on_bind, on_get, on_store hs, stagedFiles]
  cases staged r.files r.root s.index ((r.files.entries.map (·.1.length)).foldl max 0 + 1)
    [ownRules r.files r.root] false [] <;> rfl

theorem on_headCommit (hs : r.store? = some s) : on headCommit r = (s.headCommit, r) := by
  simp only [headCommit, on_bind, on_store hs]
  cases s.headCommit <;> rfl

/-- The branch that is checked out, by its short name. -/
def currentOf (s : Store) : Except Fault String :=
  match s.head with
  | .branch name => .ok (RefName.shorten name)
  | .detached _ => .error (.configuration .detachedHead)
  | .damaged _ => .error .store

theorem on_currentBranch (hs : r.store? = some s) : on currentBranch r = (currentOf s, r) := by
  simp only [currentBranch, on_bind, on_store hs, currentOf]
  cases s.head <;> rfl

/-- The tip of a branch, which must be there. -/
def tipOf (s : Store) (branch : String) : Except Fault Nat :=
  match s.tip? branch with
  | some n => .ok n
  | none => .error (.configuration (.missingBranch branch))

theorem tipOf_eq_ok : tipOf s branch = .ok n ↔ s.tip? branch = some n := by
  unfold tipOf
  cases s.tip? branch <;> simp

theorem on_tip (hs : r.store? = some s) (branch : String) : on (tip branch) r = (tipOf s branch, r) := by
  simp only [tip, on_bind, on_store hs, tipOf]
  cases s.tip? branch <;> rfl

def commitObject (i : Identity) (s : Store) (index : Snapshot) (message time : String) :
    Except Fault CommitObject := do
  let signature ← signatureAt i time
  let parent ← s.headCommit
  return ⟨index, parent.toList, signature, message⟩

/-- The files of two commits put together in a repository. -/
def merged [Merger] (r : Repository) (s : Store) (ours theirs : Nat) : Snapshot.Merged :=
  Merger.merge r.files r.root s ours theirs

def mergeObject [Merger] (r : Repository) (s : Store) (branch : String) (c : Commit) :
    Except Fault CommitObject := do
  let current ← currentOf s
  let ours ← tipOf s current
  let theirs ← tipOf s branch
  let merged := r.merged s ours theirs
  if !merged.conflicts.isEmpty then throw (.merge (.conflict branch current merged.conflicts))
  let signature ← signatureAt r.identity c.datetime
  return ⟨merged.snapshot, [ours, theirs], signature, c.message⟩

/-! ### Commits -/

theorem on_addCommit (hs : r.store? = some s) (c : CommitObject) :
    on (addCommit c) r = match s.commit? c with
      | some (id, t) => (.ok id, r.withStore t)
      | none => (.error .store, r) := by
  simp only [addCommit, on_bind, on_store hs]
  cases s.commit? c <;> rfl

theorem on_commit (hs : r.store? = some s) (message time : String) :
    on (commit message time) r = match r.stagedFiles s with
      | none => (.error .store, r)
      | some index =>
        match commitObject r.identity s index message time with
        | .error e => (.error e, r.withStore { s with index := index })
        | .ok c => on (addCommit c) (r.withStore { s with index := index }) := by
  rw [commit, on_bind, on_stage hs]
  cases r.stagedFiles s with
  | none => rfl
  | some index =>
    have hhead : ({ s with index := index } : Store).headCommit = s.headCommit := rfl
    simp only [on_bind, on_signature, withStore_identity, commitObject]
    cases signatureAt r.identity time with
    | error e => rfl
    | ok signature =>
      dsimp only
      rw [on_headCommit (store?_withStore r _), hhead]
      cases s.headCommit <;> rfl

/-! ### Checking out -/

def showing (r : Repository) (s : Store) (snapshot : Snapshot) : Repository :=
  withStore { r with files := replaceFiles r.root (s.headSnapshot ++ s.index) snapshot r.files }
    { s with index := snapshot }

theorem on_checkoutSnapshot (hs : r.store? = some s) (snapshot : Snapshot) :
    on (checkoutSnapshot snapshot) r = (.ok (), r.showing s snapshot) := by
  simp only [checkoutSnapshot, on_bind, on_store hs, on_modify]
  rfl

theorem on_checkoutHead (hs : r.store? = some s) :
    on checkoutHead r = match s.headCommit with
      | .error e => (.error e, r)
      | .ok none => (.error .store, r)
      | .ok (some n) => (.ok (), r.showing s (s.history.snapshot n)) := by
  rw [checkoutHead, on_bind, on_headCommit hs]
  cases s.headCommit with
  | error e => rfl
  | ok found =>
    cases found with
    | none => rfl
    | some n => simp only [on_bind, on_store hs, on_checkoutSnapshot hs]

theorem on_checkout (hs : r.store? = some s) (name : String) :
    on (checkout name) r = match Revision.resolve s (RefName.headsPlace ++ name) with
      | none => (.error (.configuration (.checkout name)), r)
      | some target =>
        match target.snapshot? s with
        | none => (.error .store, r)
        | some snapshot =>
          on (setStore? ((headOf? s (RefName.headsPlace ++ name)).map fun h =>
            { s with index := snapshot, head := h })) (r.showing s snapshot) := by
  simp only [checkout, on_bind, on_store hs]
  cases Revision.resolve s (RefName.headsPlace ++ name) with
  | none => rfl
  | some target =>
    dsimp only
    cases target.snapshot? s with
    | none => rfl
    | some snapshot =>
      have hafter : (r.showing s snapshot).store? = some { s with index := snapshot } :=
        store?_withStore _ _
      simp only [on_bind, on_checkoutSnapshot hs, on_store hafter]
      rfl

theorem on_checkout_of_resolve {target : Revision.Target} {snapshot : Snapshot} {head : Head}
    (hs : r.store? = some s) (htarget : Revision.resolve s (RefName.headsPlace ++ name) = some target)
    (hsnapshot : target.snapshot? s = some snapshot)
    (hhead : headOf? s (RefName.headsPlace ++ name) = some head) :
    on (checkout name) r = (.ok (), (r.showing s snapshot).withStore
      { s with index := snapshot, head := head }) := by
  rw [on_checkout hs, htarget]
  simp only [hsnapshot, hhead, Option.map_some, on_setStore?]

/-! ### Branches -/

theorem on_branchExists (hs : r.store? = some s) (name : String) :
    on (branchExists name) r =
      (if (RefName.branch? name).isNone then .error .store else .ok (s.tip? name).isSome, r) := by
  unfold branchExists
  split <;> simp only [on_bind, on_throw, on_pure, on_store hs]

theorem on_createBranch (hs : r.store? = some s) (name start : String) :
    on (createBranch name start) r = match tipOf s start with
      | .error e => (.error e, r)
      | .ok n =>
        match s.createBranch? name n with
        | none => (.error .store, r)
        | some t => on (checkout name) (r.withStore t) := by
  rw [createBranch, on_bind, on_tip hs]
  cases tipOf s start with
  | error e => rfl
  | ok n =>
    simp only [on_bind, on_store hs, on_setStore?]
    cases s.createBranch? name n <;> rfl

/-! ### Merges and tags -/

theorem on_fastForward [Git.Merger] (hs : r.store? = some s) (branch : String) :
    on (merge branch .fastForward) r = match currentOf s with
      | .error e => (.error e, r)
      | .ok current =>
        match tipOf s current, tipOf s branch with
        | .error e, _ => (.error e, r)
        | .ok _, .error e => (.error e, r)
        | .ok ours, .ok theirs =>
          if ours = theirs then (.ok (), r)
          else if !s.history.isAncestor ours theirs then
            (.error (.merge (.diverged current branch)), r)
          else
            match RefName.branch? current with
            | none => (.error .store, r)
            | some name => on checkoutHead (r.withStore (s.setTip name theirs)) := by
  simp only [merge, on_bind, on_currentBranch hs]
  cases currentOf s with
  | error e => rfl
  | ok current =>
    simp only [on_tip hs]
    cases tipOf s current with
    | error e => rfl
    | ok ours =>
      dsimp only
      rw [on_tip hs]
      cases tipOf s branch with
      | error e => rfl
      | ok theirs =>
        dsimp only
        rw [on_store hs]
        dsimp only
        by_cases hsame : ours = theirs
        · simp only [hsame, if_true, on_pure]
        · by_cases hforward : s.history.isAncestor ours theirs = true
          · simp only [if_neg hsame, hforward]
            cases RefName.branch? current <;> rfl
          · simp only [if_neg hsame, hforward]
            rfl

theorem on_mergeWithCommit [Merger] (hs : r.store? = some s) (branch : String) (c : Commit) :
    on (merge branch (.withCommit c)) r = match mergeObject r s branch c with
      | .error e => (.error e, r)
      | .ok object =>
        match s.commit? object with
        | none => (.error .store, r)
        | some (_, t) => on checkoutHead (r.withStore t) := by
  have hadd : ∀ object : CommitObject, on (addCommit object >>= fun _ => checkoutHead) r =
      match s.commit? object with
        | none => (.error .store, r)
        | some (_, t) => on checkoutHead (r.withStore t) := by
    intro object
    rw [on_bind, on_addCommit hs]
    cases s.commit? object <;> rfl
  simp only [merge, on_bind, on_currentBranch hs, mergeObject, merged]
  cases currentOf s with
  | error e => rfl
  | ok current =>
    rw [Except.ok_bind]
    dsimp only
    rw [on_tip hs]
    cases tipOf s current with
    | error e => rfl
    | ok ours =>
      rw [Except.ok_bind]
      dsimp only
      rw [on_tip hs]
      cases tipOf s branch with
      | error e => rfl
      | ok theirs =>
        rw [Except.ok_bind]
        dsimp only
        rw [on_store hs]
        dsimp only
        rw [on_get]
        dsimp only
        by_cases hconflicts : (Merger.merge r.files r.root s ours theirs).conflicts.isEmpty = true
        · simp only [hconflicts, Bool.not_true, Bool.false_eq_true, if_false, on_bind, on_signature]
          cases signatureAt r.identity c.datetime with
          | error e => rfl
          | ok signature =>
            rw [Except.ok_bind]
            exact on_bind.symm.trans (hadd ⟨_, [ours, theirs], signature, c.message⟩)
        · simp only [hconflicts]
          rfl

/-- A tag is refused before the first commit, and where its signature or its message cannot be
stored. -/
theorem on_tag (hs : r.store? = some s) (name message time : String) :
    on (tag name message time) r = match s.headCommit with
      | .error e => (.error e, r)
      | .ok none => (.error (.configuration (.tagBeforeCommit name)), r)
      | .ok (some n) =>
        match signatureAt r.identity time with
        | .error e => (.error e, r)
        | .ok signature =>
          if !signature.isStorable || message.toList.contains '\x00' then (.error .store, r)
          else
            match s.createTag? ⟨name, n, signature, message⟩ with
            | none => (.error .store, r)
            | some t => (.ok (), r.withStore t) := by
  rw [tag, on_bind, on_headCommit hs]
  cases s.headCommit with
  | error e => rfl
  | ok found =>
    cases found with
    | none => rfl
    | some n =>
      simp only [on_bind, on_signature]
      cases signatureAt r.identity time with
      | error e => rfl
      | ok signature =>
        dsimp only
        split
        · rfl
        · simp only [on_bind, on_store hs, on_setStore?]
          cases s.createTag? ⟨name, n, signature, message⟩ <;> rfl

/-! ### Calls that only ask -/

section Asking

variable {I : Repository → Prop}

theorem preserves_store : Preserves I store := by
  refine preserves_get_bind fun r hr => ?_
  split
  · exact hr
  · exact hr

theorem preserves_currentBranch : Preserves I currentBranch := by
  refine preserves_store.bind fun s => ?_
  split
  · exact preserves_pure _
  · exact preserves_throw _
  · exact preserves_throw _

theorem preserves_tip (branch : String) : Preserves I (tip branch) := by
  refine preserves_store.bind fun s => ?_
  split
  · exact preserves_pure _
  · exact preserves_throw _

theorem preserves_branchExists (name : String) : Preserves I (branchExists name) := by
  unfold branchExists
  split
  · exact (preserves_throw _).bind fun _ => preserves_store.bind fun _ => preserves_pure _
  · exact preserves_store.bind fun _ => preserves_pure _

theorem preserves_headCommit : Preserves I headCommit := by
  refine preserves_store.bind fun s => ?_
  split
  · exact preserves_pure _
  · exact preserves_throw _

theorem preserves_signature (time : String) : Preserves I (signature time) := by
  intro r hr
  rw [on_signature]
  exact hr

theorem preserves_log (branch : String) : Preserves I (log branch) :=
  (preserves_tip branch).bind fun _ => preserves_store.bind fun _ => preserves_pure _

theorem on_readText [Git.Merger] (r : Repository) (path : String) :
    (on (WorkTree.readText path) r).2 = r := by
  have hread : on (WorkTree.readText path) r =
      on (onFiles fun root => FileTree.readText? root path) r := rfl
  rw [hread, on_onFiles, FileTree.on_readText?]

/-- A call that only asks leaves a repository as it is. -/
theorem after_of_asks [Git.Merger] {call : WorkTree.Call} (h : call.Asks)
    (r : Repository) : call.after r = r := by
  cases call with
  | currentBranch => exact preserves_currentBranch (I := fun g => g = r) r rfl
  | branchExists name => exact preserves_branchExists (I := fun g => g = r) name r rfl
  | readText path => exact on_readText r path
  | tags => exact preserves_store.bind (I := fun g => g = r) (fun _ => preserves_pure _) r rfl
  | log branch => exact preserves_log (I := fun g => g = r) branch r rfl
  | _ => exact h.elim

end Asking

end ReleaseHistory.Repository
