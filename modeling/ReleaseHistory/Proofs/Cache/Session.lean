import ReleaseHistory.Cache
import ReleaseHistory.Proofs.FileTree.Copy

/-!
# Steps of a cache session

What each operation of a session gives, in terms of what the operations on its files give. A build
is begun in a directory that has been made anew for it; before that, files are only looked at.
-/

namespace ReleaseHistory.CacheSession

open Operation

variable {s : CacheSession} {name hash : String} {build : Builder}

/-! ### Parts of a step -/

theorem on_onFiles {α : Type} (f : Location → Operation FileTree α) :
    on (onFiles f) s = ((on (f s.base) s.files).1, { s with files := (on (f s.base) s.files).2 }) := by
  have hrun : (f s.base).run s.files = on (f s.base) s.files := rfl
  simp only [onFiles, on_bind, on_get, hrun]
  rcases on (f s.base) s.files with ⟨r, t⟩
  cases r with
  | ok a => rfl
  | error e => rfl

@[simp] theorem on_modifyCache (f : Cache → Cache) :
    on (modifyCache f) s = (.ok (), { s with cache := f s.cache }) :=
  rfl

@[simp] theorem on_isDirectory (path : String) :
    on (isDirectory path) s = (.ok ((s.files.find? s.base path).any (·.2.isDirectory)), s) :=
  rfl

theorem on_entry : on ( entry? name) s = (match s.files.find? s.base (dataPath s.cache name) with
    | none => .ok none
    | some (_, .text text) =>
      match CacheEntry.ofText? text with
      | some e => .ok (some e)
      | none => .error (.cache (.corrupt (dataPath s.cache name)))
    | some _ => .error .file, s) := by
  simp only [on_bind, entry?, on_get, on_onFiles, FileTree.on_readText?]
  rcases s.files.find? s.base (dataPath s.cache name) with _ | ⟨l, _ | text | store⟩
  · rfl
  · rfl
  · dsimp only
    cases CacheEntry.ofText? text with
    | none => rfl
    | some e => rfl
  · rfl

/-! ### Building -/

/-- Makes the directory for a repository, without what is kept beside it. -/
def makeAnew (entry repository : String) (base : Location) : Operation FileTree Location := do
  let t ← get
  if (t.find? base entry).isSome then
    if (t.find? base entry).any (·.2.isDirectory) then FileTree.remove base entry else throw .file
  FileTree.createDirectory base repository

/-- The files in which a build under a name begins, if they can be made. -/
def prepared (s : CacheSession) (name : String) : Except Fault Location × FileTree :=
  on (makeAnew (entryPath s.cache name) (repositoryPath s.cache name) s.base) s.files

/-- What a build in a directory made anew comes to, and the files after it. -/
def built (s : CacheSession) (name : String) (build : Builder) :
    Except Fault (Option Definition) × FileTree :=
  on (build s.base (repositoryPath s.cache name)) (s.prepared name).2

/-- A session with other files, in which one build more was begun. -/
def begun (s : CacheSession) (files : FileTree) : CacheSession :=
  { s with files := files, cache := { s.cache with builds := s.cache.builds + 1 } }

/-- Builds in a directory that is made, and keeps the data beside it. -/
def construct (c : Cache) (name hash : String) (build : Builder) : Operation CacheSession Bool := do
  modifyCache fun c => { c with builds := c.builds + 1 }
  match ← onFiles fun base => build base (repositoryPath c name) with
  | none =>
    modifyCache fun c => { c with isPoisoned := true }
    return false
  | some d =>
    let text := (CacheEntry.mk hash d).toJson.indented
    onFiles fun base => FileTree.writeHere base (dataPath c name) text
    return true

theorem rebuild_eq : rebuild name hash build = (do
    let s ← get
    let entry := entryPath s.cache name
    let repository := repositoryPath s.cache name
    if (s.files.find? s.base entry).isSome then
      if ← isDirectory entry then onFiles fun base => FileTree.remove base entry else throw .file
    let _ ← onFiles fun base => FileTree.createDirectory base repository
    construct s.cache name hash build) := rfl

theorem on_rebuild_eq_construct : on (rebuild name hash build) s =
    on (onFiles (makeAnew (entryPath s.cache name) (repositoryPath s.cache name)) >>= fun _ =>
      construct s.cache name hash build) s := by
  simp only [rebuild_eq, makeAnew, on_bind, on_get, on_onFiles]
  cases (s.files.find? s.base (entryPath s.cache name)).isSome with
  | false =>
    simp only [Bool.false_eq_true, if_false, on_bind, on_onFiles]
  | true =>
    simp only [if_true, on_bind, on_isDirectory]
    cases (s.files.find? s.base (entryPath s.cache name)).any (·.2.isDirectory) with
    | false => rfl
    | true =>
      simp only [if_true, on_bind, on_onFiles]
      rcases on (FileTree.remove s.base (entryPath s.cache name)) s.files with ⟨r, t⟩
      cases r with
      | error e => rfl
      | ok u => rfl

theorem on_rebuild : on (rebuild name hash build) s = match s.prepared name with
    | (.error e, t) => (.error e, { s with files := t })
    | (.ok _, _) =>
      match s.built name build with
      | (.error e, t) => (.error e, s.begun t)
      | (.ok none, t) =>
        (.ok false, { s.begun t with cache := { (s.begun t).cache with isPoisoned := true } })
      | (.ok (some d), t) =>
        let text := (CacheEntry.mk hash d).toJson.indented
        let (r, t) := on (FileTree.writeHere s.base (dataPath s.cache name) text) t
        (r.map fun _ => true, s.begun t) := by
  rw [on_rebuild_eq_construct, on_bind, on_onFiles]
  have hprepared : on (makeAnew (entryPath s.cache name) (repositoryPath s.cache name) s.base)
      s.files = s.prepared name := rfl
  have hbuilt : on (build s.base (repositoryPath s.cache name)) (s.prepared name).2 =
      s.built name build := rfl
  rw [hprepared]
  rcases hp : s.prepared name with ⟨r, t⟩
  rw [hp] at hbuilt
  cases r with
  | error e => rfl
  | ok l =>
    simp only [construct, on_bind, on_modifyCache, on_onFiles, hbuilt]
    rcases s.built name build with ⟨_ | _ | d, t'⟩
    · rfl
    · rfl
    · dsimp only
      simp only [on_bind, on_onFiles]
      cases (on (FileTree.writeHere s.base (dataPath s.cache name)
        (CacheEntry.mk hash d).toJson.indented) t').1 with
      | ok u => rfl
      | error e => rfl

theorem on_rebuild_of_error {l : Location} {u v : FileTree} {e : Fault}
    (hprepared : s.prepared name = (.ok l, u)) (hbuilt : s.built name build = (.error e, v)) :
    on (rebuild name hash build) s = (.error e, s.begun v) := by
  rw [on_rebuild, hprepared]
  dsimp only
  rw [hbuilt]

theorem on_rebuild_of_some {l : Location} {u v w : FileTree} {d : Definition}
    (hprepared : s.prepared name = (.ok l, u)) (hbuilt : s.built name build = (.ok (some d), v))
    (hwrite : on (FileTree.writeHere s.base (dataPath s.cache name)
      (CacheEntry.mk hash d).toJson.indented) v = (.ok (), w)) :
    on (rebuild name hash build) s = (.ok true, s.begun w) := by
  rw [on_rebuild, hprepared]
  dsimp only
  rw [hbuilt]
  dsimp only
  rw [hwrite]
  rfl

theorem on_buildEntry_of_kept {e : CacheEntry} (h : on ( entry? name) s = (.ok (some e), s))
    (hhash : e.hash = hash)
    (hdir : (s.files.find? s.base (repositoryPath s.cache name)).any (·.2.isDirectory) = true) :
    on (buildEntry name hash build) s = (.ok true, s) := by
  simp only [buildEntry, on_bind, on_get, h]
  rw [if_pos hhash]
  simp only [on_bind, on_isDirectory, hdir]
  rfl

theorem on_buildEntry_of_not_kept {e : Option CacheEntry} (h : on ( entry? name) s = (.ok e, s))
    (hhash : ∀ e', e = some e' → e'.hash ≠ hash) :
    on (buildEntry name hash build) s = on (rebuild name hash build) s := by
  simp only [buildEntry, on_bind, on_get, h]
  cases e with
  | none => rfl
  | some e =>
    dsimp only
    rw [if_neg (hhash e rfl)]

/-! ### Calls -/

/-- A session that does not know any more what is built under a name. -/
def forgotten (s : CacheSession) (name : String) : CacheSession :=
  { s with cache := { s.cache with built := s.cache.built.filter (·.1 ≠ name) } }

/-- A session that knows that a name is built from a hash. -/
def remembered (s : CacheSession) (name hash : String) : CacheSession :=
  { s with cache := { s.cache with built := s.cache.built ++ [(name, hash)] } }

/-- What copying a repository gives, and the session after it. -/
def copied (s : CacheSession) (name target : String) : Except Fault Bool × CacheSession :=
  let (r, t) := on (FileTree.copyDirectory s.base (repositoryPath s.cache name) target) s.files
  (r.map fun _ => true, { s with files := t })

theorem on_copyRepository {c : Cache} (s : CacheSession) (name target : String)
    (hroot : c.root = s.cache.root) :
    on (do
      onFiles fun base => FileTree.copyDirectory base (repositoryPath c name) target
      return true) s = s.copied name target := by
  have hpath : repositoryPath c name = repositoryPath s.cache name := by
    simp only [repositoryPath, entryPath, hroot]
  simp only [on_bind, on_onFiles, copied, hpath]
  cases (on (FileTree.copyDirectory s.base (repositoryPath s.cache name) target) s.files).1 with
  | ok u => rfl
  | error e => rfl

theorem on_ensure_of_built {target : String} (hpoison : s.cache.isPoisoned = false)
    (h : (name, hash) ∈ s.cache.built) :
    on (ensure name hash build target) s = s.copied name target := by
  have hcontains : s.cache.built.contains (name, hash) = true := by simpa using h
  simp only [ensure, on_bind, on_get, hpoison, hcontains]
  exact on_copyRepository s name target rfl

theorem on_ensure_of_error {target : String} {e : Fault} {t : CacheSession}
    (hpoison : s.cache.isPoisoned = false) (h : (name, hash) ∉ s.cache.built)
    (hbuild : on (buildEntry name hash build) (s.forgotten name) = (.error e, t)) :
    on (ensure name hash build target) s = (.error e, t) := by
  have hcontains : s.cache.built.contains (name, hash) = false := by simpa using h
  have hforgotten : on (modifyCache fun c => { c with built := c.built.filter (·.1 ≠ name) }) s =
      (.ok (), s.forgotten name) := rfl
  simp only [ensure, on_bind, on_get, hpoison, hcontains]
  simp only [on_bind, hforgotten, hbuild, Bool.not_false, if_true, Bool.false_eq_true, if_false]

theorem on_ensure_of_ok {target : String} {t : CacheSession}
    (hpoison : s.cache.isPoisoned = false) (h : (name, hash) ∉ s.cache.built)
    (hbuild : on (buildEntry name hash build) (s.forgotten name) = (.ok true, t))
    (hroot : t.cache.root = s.cache.root) :
    on (ensure name hash build target) s = (t.remembered name hash).copied name target := by
  have hcontains : s.cache.built.contains (name, hash) = false := by simpa using h
  have hforgotten : on (modifyCache fun c => { c with built := c.built.filter (·.1 ≠ name) }) s =
      (.ok (), s.forgotten name) := rfl
  have hremembered : on (modifyCache fun c => { c with built := c.built ++ [(name, hash)] }) t =
      (.ok (), t.remembered name hash) := rfl
  have hcopy := on_copyRepository (t.remembered name hash) name target hroot.symm
  rw [on_bind] at hcopy
  simp only [ensure, on_bind, on_get, hpoison, hcontains]
  simp only [on_bind, hforgotten, hbuild, hremembered, Bool.not_false, Bool.not_true, if_true,
    Bool.false_eq_true, if_false]
  exact hcopy

end ReleaseHistory.CacheSession
