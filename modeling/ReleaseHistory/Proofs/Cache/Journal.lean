import ReleaseHistory.Proofs.Cache.Target

/-!
# What a cache keeps

The calls to a cache are followed by a journal of the builds that were begun. Whatever the calls
were, and whenever a new session took over, the cache keeps under each name what the last build for
that name came to, and nothing if that build failed. Knowing in a session what was built spares
looking at the files, and has no other effect.
-/

namespace ReleaseHistory.CacheSession

open Operation FileTree

/-! ### Builds and calls -/

/-- What a build in a directory comes to: all that is not below the directory is as it was, and the
build fails or gives a definition that can be read again from the data that are kept. -/
structure BuiltInside (t : FileTree) (l : Location) (hash : String)
    (result : Except Fault (Option Definition) × FileTree) : Prop where
  wellFormed : result.2.WellFormed
  mount : result.2.mount = t.mount
  others : ∀ k, (∀ w, w ≠ [] → k ≠ l ++ w) → result.2.get? k = t.get? k
  ends : result.1 ≠ .ok none
  survives : ∀ d, result.1 = .ok (some d) →
    CacheEntry.ofText? (CacheEntry.mk hash d).toJson.indented = some ⟨hash, d⟩

/-- A builder that works in the empty directory that it is given. -/
def Builder.StaysInside (build : Builder) (hash : String) : Prop :=
  ∀ (t : FileTree) (base : Location) (path : String) (l : Location), t.WellFormed →
    t.find? base path = some (l, .directory) → t.OutsideStores l → t.Vacant l →
      BuiltInside t l hash (on (build base path) t)

/-- A call to a cache. -/
structure Call where
  name : String
  hash : String
  build : Builder
  target : String

/-- What a call gives, and the session after it. -/
def Call.run (c : Call) (s : CacheSession) : Except Fault Bool × CacheSession :=
  on (ensure c.name c.hash c.build c.target) s

/-- A call with a plain name, a builder that stays inside and a fresh directory to copy to. -/
structure Call.Proper (c : Call) (s : CacheSession) (place : Location) : Prop where
  name : Plain c.name
  build : Builder.StaysInside c.build c.hash
  target : FreshTarget s.files s.base s.cache.root c.target place

def renewed (s : CacheSession) : CacheSession := start s.files s.base s.cache.root

/-! ### Journals -/

/-- A build that was begun: what it came to, and the files after it. -/
structure Attempt where
  name : String
  hash : String
  outcome : Except Fault (Option Definition)
  files : FileTree

def Attempt.record? (a : Attempt) : Option CacheEntry :=
  match a.outcome with
  | .ok (some d) => some ⟨a.hash, d⟩
  | _ => none

/-- The build that a call begins, if it begins one. -/
def Call.attempt? (c : Call) (s : CacheSession) : Option Attempt :=
  if (c.run s).2.cache.builds = s.cache.builds then none
  else some ⟨c.name, c.hash, (s.built c.name c.build).1, (s.built c.name c.build).2⟩

/-- A session and the builds that were begun in it and before it, the last one first. -/
structure Journal where
  session : CacheSession
  attempts : List Attempt

namespace Journal

def last? (j : Journal) (name : String) : Option Attempt := j.attempts.find? (·.name = name)

def after (j : Journal) (c : Call) : Journal :=
  ⟨(c.run j.session).2, (c.attempt? j.session).toList ++ j.attempts⟩

end Journal

/-! ### What is kept -/

/-- What was built is kept, with its data beside it. -/
structure Stored (t : FileTree) (place : Location) (a : Attempt) (d : Definition) : Prop where
  entry : t.get? (place ++ [a.name]) = some .directory
  data : t.get? (place ++ [a.name, dataName]) =
    some (.text (CacheEntry.mk a.hash d).toJson.indented)
  survives : CacheEntry.ofText? (CacheEntry.mk a.hash d).toJson.indented = some ⟨a.hash, d⟩
  repository : t.get? (place ++ [a.name, repositoryName]) = some .directory
  same : ∀ w, w ≠ [] → t.get? (place ++ [a.name, repositoryName] ++ w) =
    a.files.get? (place ++ [a.name, repositoryName] ++ w)

/-- What a build left in its directory is there, whatever it came to. -/
structure Left (t : FileTree) (place : Location) (a : Attempt) : Prop where
  entry : t.get? (place ++ [a.name]) = some .directory
  repository : t.get? (place ++ [a.name, repositoryName]) = some .directory
  same : ∀ w, w ≠ [] → t.get? (place ++ [a.name, repositoryName] ++ w) =
    a.files.get? (place ++ [a.name, repositoryName] ++ w)

theorem Stored.left {t : FileTree} {place : Location} {a : Attempt} {d : Definition}
    (h : Stored t place a d) : Left t place a :=
  ⟨h.entry, h.repository, h.same⟩

/-- The last build under a name is kept, or nothing is. -/
structure Kept (t : FileTree) (start : Location) (ps : List String) (place : Location)
    (name : String) (a? : Option Attempt) : Prop where
  clearable : Clearable t start ps place name
  missing : a?.bind Attempt.record? = none → t.get? (place ++ [name, dataName]) = none
  stored : ∀ a d, a? = some a → a.outcome = .ok (some d) → Stored t place a d

/-- A journal of a cache that works. -/
structure Sound (base : Location) (root : String) (start : Location) (ps : List String)
    (place : Location) (j : Journal) : Prop where
  base_eq : j.session.base = base
  root_eq : j.session.cache.root = root
  sane : j.session.cache.isPoisoned = false
  anchor : Anchor j.session.files base root start ps place
  ground : Ground j.session.files start ps place
  standing : j.attempts ≠ [] → Standing j.session.files start ps place
  kept : ∀ name, Plain name → Kept j.session.files start ps place name (j.last? name)
  known : ∀ name hash, (name, hash) ∈ j.session.cache.built →
    ∃ a d, j.last? name = some a ∧ a.hash = hash ∧ a.outcome = .ok (some d)

variable {base start place : Location} {root : String} {ps : List String} {j : Journal}

theorem Journal.name_of_last? {name : String} {a : Attempt} (h : j.last? name = some a) :
    a.name = name := by
  simpa using List.find?_some h

theorem Call.name_of_attempt? {c : Call} {s : CacheSession} {a : Attempt}
    (h : c.attempt? s = some a) : a.name = c.name := by
  rw [Call.attempt?] at h
  split at h
  · cases h
  · cases h
    rfl

theorem Sound.join_eq (h : Sound base root start ps place j) (name file : String) :
    Path.join (entryPath j.session.cache name) file = Path.join (Path.join root name) file := by
  rw [← h.root_eq]
  rfl

theorem Sound.standing_of_last? {name : String} {a : Attempt}
    (h : Sound base root start ps place j) (ha : j.last? name = some a) :
    Standing j.session.files start ps place := by
  refine h.standing fun hnil => ?_
  simp [Journal.last?, hnil] at ha

theorem Attempt.record?_eq_some {a : Attempt} {e : CacheEntry} :
    a.record? = some e ↔ a.hash = e.hash ∧ a.outcome = .ok (some e.definition) := by
  obtain ⟨name, hash, outcome, files⟩ := a
  obtain ⟨hash', d⟩ := e
  unfold Attempt.record?
  rcases outcome with _ | _ | d'
  · simp
  · simp
  · simp

/-- What is kept under a name is what the last build for it came to. -/
theorem Sound.on_stored (h : Sound base root start ps place j) {name : String}
    (hname : Plain name) :
    on ( entry? name) j.session = (.ok ((j.last? name).bind Attempt.record?), j.session) := by
  have hk := h.kept name hname
  have hpath : dataPath j.session.cache name = Path.join (Path.join root name) dataName :=
    h.join_eq name dataName
  rw [CacheSession.on_entry, hpath, h.base_eq]
  cases he : (j.last? name).bind Attempt.record? with
  | none =>
    have hfind : j.session.files.find? base (Path.join (Path.join root name) dataName) = none := by
      rw [find?]
      cases hl : j.session.files.locate? base (Path.join (Path.join root name) dataName) with
      | none => rfl
      | some l =>
        rw [h.anchor.locate?_file_eq h.ground.wellFormed hname plain_dataName hl, Option.bind_some,
          hk.missing he]
        rfl
    rw [hfind]
  | some e =>
    obtain ⟨a, ha, hae⟩ := Option.bind_eq_some_iff.1 he
    obtain ⟨hhash, houtcome⟩ := Attempt.record?_eq_some.1 hae
    obtain ⟨hentry, hdata, hsurvives, -, -⟩ := hk.stored a e.definition ha houtcome
    rw [Journal.name_of_last? ha] at hentry hdata
    rw [h.anchor.find?_file h.ground.wellFormed (h.standing_of_last? ha) hname plain_dataName hentry
      hdata]
    simp only [hsurvives]
    rw [hhash]

/-! ### Steps -/

theorem Kept.congr {t u : FileTree} {name : String} {a? : Option Attempt}
    (h : Kept t start ps place name a?)
    (hsame : ∀ w, u.get? (place ++ name :: w) = t.get? (place ++ name :: w))
    (hstanding : Standing t start ps place → Standing u start ps place)
    (hname : ∀ a, a? = some a → a.name = name) : Kept u start ps place name a? where
  clearable := by
    rcases h.clearable with hnone | ⟨hdir, hs⟩
    · exact Or.inl fun w => (hsame w).trans (hnone w)
    · exact Or.inr ⟨(hsame []).trans hdir, hstanding hs⟩
  missing hnone := (hsame [dataName]).trans (h.missing hnone)
  stored a d ha houtcome := by
    obtain ⟨hentry, hdata, hsurvives, hrepository, hbelow⟩ := h.stored a d ha houtcome
    have hsame' : ∀ w, u.get? (place ++ a.name :: w) = t.get? (place ++ a.name :: w) := by
      rw [hname a ha]
      exact hsame
    refine ⟨(hsame' []).trans hentry, (hsame' [dataName]).trans hdata, hsurvives,
      (hsame' [repositoryName]).trans hrepository, fun w hw => ?_⟩
    rw [← hbelow w hw, List.append_assoc]
    exact hsame' (repositoryName :: w)

theorem Sound.know (h : Sound base root start ps place j) (known : List (String × String))
    (builds : Nat) (hknown : ∀ name hash, (name, hash) ∈ known →
      ∃ a d, j.last? name = some a ∧ a.hash = hash ∧ a.outcome = .ok (some d)) :
    Sound base root start ps place ⟨{ j.session with
      cache := { j.session.cache with built := known, builds := builds } }, j.attempts⟩ where
  base_eq := h.base_eq
  root_eq := h.root_eq
  sane := h.sane
  anchor := h.anchor
  ground := h.ground
  standing := h.standing
  kept := h.kept
  known := hknown

theorem Sound.renewed (h : Sound base root start ps place j) :
    Sound base root start ps place ⟨j.session.renewed, j.attempts⟩ := by
  have hnone := h.know [] 0 fun _ _ hmem => by cases hmem
  have hsession : j.session.renewed = { j.session with
      cache := { j.session.cache with built := [], builds := 0 } } := by
    have hsane := h.sane
    simp only [CacheSession.renewed, CacheSession.start, hsane]
  rw [hsession]
  exact hnone

theorem Sound.forgotten (h : Sound base root start ps place j) (name : String) :
    Sound base root start ps place ⟨j.session.forgotten name, j.attempts⟩ :=
  h.know (j.session.cache.built.filter (·.1 ≠ name)) j.session.cache.builds
    fun name' hash hmem => h.known name' hash (List.mem_of_mem_filter hmem)

theorem Sound.remembered (h : Sound base root start ps place j) {a : Attempt} {d : Definition}
    (ha : j.last? a.name = some a) (houtcome : a.outcome = .ok (some d)) :
    Sound base root start ps place ⟨j.session.remembered a.name a.hash, j.attempts⟩ := by
  refine h.know (j.session.cache.built ++ [(a.name, a.hash)]) j.session.cache.builds
    fun name hash hmem => ?_
  rcases List.mem_append.1 hmem with hmem | hmem
  · exact h.known name hash hmem
  · cases List.mem_singleton.1 hmem
    exact ⟨a, d, ha, rfl, houtcome⟩

theorem Sound.begun {a : Attempt} {v : FileTree} (h : Sound base root start ps place j)
    (hr : Rebuilt j.session.files v start ps place a.name)
    (hkept : Kept v start ps place a.name (some a))
    (hforgot : ∀ hash, (a.name, hash) ∉ j.session.cache.built) :
    Sound base root start ps place ⟨j.session.begun v, a :: j.attempts⟩ where
  base_eq := h.base_eq
  root_eq := h.root_eq
  sane := h.sane
  anchor := h.anchor.congr hr.mount
  ground := ⟨hr.wellFormed, hr.outside h.ground.outside, hr.standing.ready⟩
  standing _ := hr.standing
  kept name hname := by
    by_cases hne : a.name = name
    · subst hne
      have hlast : Journal.last? ⟨j.session.begun v, a :: j.attempts⟩ a.name = some a := by
        simp [Journal.last?]
      rw [hlast]
      exact hkept
    · have hlast : Journal.last? ⟨j.session.begun v, a :: j.attempts⟩ name = j.last? name := by
        simp [Journal.last?, hne]
      rw [hlast]
      exact (h.kept name hname).congr (hr.other_name h.anchor (Ne.symm hne))
        (fun _ => hr.standing) fun a' => Journal.name_of_last?
  known name hash hmem := by
    have hne : a.name ≠ name := by
      rintro rfl
      exact hforgot hash hmem
    obtain ⟨a', d, ha', h'⟩ := h.known name hash hmem
    exact ⟨a', d, by simpa [Journal.last?, hne] using ha', h'⟩

/-- What a build left is copied, or it cannot be copied; the cache stays as it is. -/
theorem Sound.copied_left {name target : String} {a : Attempt}
    (h : Sound base root start ps place j) (hname : Plain name) (ha : j.last? name = some a)
    (hleft : Left j.session.files place a)
    (htarget : FreshTarget j.session.files base root target place) :
    Sound base root start ps place ⟨(j.session.copied name target).2, j.attempts⟩ ∧
      (∀ k, place <+: k →
        (j.session.copied name target).2.files.get? k = j.session.files.get? k) ∧
      (j.session.copied name target).1 ≠ .ok false ∧
      ((j.session.copied name target).1 = .ok true → ∃ into,
        (j.session.copied name target).2.files.locate? base target = some into ∧ ∀ w, w ≠ [] →
          (j.session.copied name target).2.files.get? (into ++ w) =
            a.files.get? (place ++ [name, repositoryName] ++ w)) := by
  have hs := h.standing_of_last? ha
  obtain ⟨hentry, hrepository, hsame⟩ := hleft
  rw [Journal.name_of_last? ha] at hentry hrepository hsame
  obtain ⟨r, v, hon, hwf, hmount, hplace, hstore, hstay, hok⟩ := on_copyRepository_fresh htarget
    h.anchor h.ground hs hname hentry hrepository
  have hcopied : j.session.copied name target =
      (r.map fun _ => true, { j.session with files := v }) := by
    have hpath : repositoryPath j.session.cache name =
        Path.join (Path.join root name) repositoryName := h.join_eq name repositoryName
    simp only [CacheSession.copied, hpath, h.base_eq, hon]
  have hstanding : Standing v start ps place := hs.mono h.anchor.apart fun k _ => hstay k
  rw [hcopied]
  refine ⟨⟨h.base_eq, h.root_eq, h.sane, h.anchor.congr hmount, ⟨hwf, fun k s hk hks => ?_,
    hstanding.ready⟩, fun _ => hstanding, fun name hname' => ?_, h.known⟩, hplace, ?_, fun hr => ?_⟩
  · exact h.ground.outside k s hk (hstore k s hk hks)
  · exact (h.kept name hname').congr (fun w => hplace _ (List.prefix_append ..))
      (fun _ => hstanding) fun a' => Journal.name_of_last?
  · cases r <;> simp [Except.map]
  · cases r with
    | error e => cases hr
    | ok u =>
      obtain ⟨into, hinto, hget⟩ := hok rfl
      exact ⟨into, hinto, fun w hw => (hget w hw).trans (hsame w hw)⟩

theorem Sound.copied {name target : String} {a : Attempt} {d : Definition}
    (h : Sound base root start ps place j) (hname : Plain name) (ha : j.last? name = some a)
    (houtcome : a.outcome = .ok (some d))
    (htarget : FreshTarget j.session.files base root target place) :
    Sound base root start ps place ⟨(j.session.copied name target).2, j.attempts⟩ ∧
      (∀ k, place <+: k →
        (j.session.copied name target).2.files.get? k = j.session.files.get? k) ∧
      (j.session.copied name target).1 ≠ .ok false ∧
      ((j.session.copied name target).1 = .ok true → ∃ into,
        (j.session.copied name target).2.files.locate? base target = some into ∧ ∀ w, w ≠ [] →
          (j.session.copied name target).2.files.get? (into ++ w) =
            a.files.get? (place ++ [name, repositoryName] ++ w)) :=
  h.copied_left hname ha ((h.kept name hname).stored a d ha houtcome).left htarget

/-! ### Calls -/

variable {c : Call}

/-- A call for what was built last finds it, in the session or on the disk. -/
theorem Sound.run_of_kept {a : Attempt} {d : Definition} (h : Sound base root start ps place j)
    (hc : c.Proper j.session place) (ha : j.last? c.name = some a) (hhash : a.hash = c.hash)
    (houtcome : a.outcome = .ok (some d)) : ∃ s, c.run j.session = s.copied c.name c.target ∧
      Sound base root start ps place ⟨s, j.attempts⟩ ∧ s.files = j.session.files ∧
        s.cache.builds = j.session.cache.builds := by
  by_cases hmem : (c.name, c.hash) ∈ j.session.cache.built
  · exact ⟨j.session, on_ensure_of_built h.sane hmem, h, rfl, rfl⟩
  · have hname := Journal.name_of_last? ha
    have hforgotten := h.forgotten c.name
    have hentry := hforgotten.on_stored hc.name
    have hlast : (Journal.last? ⟨j.session.forgotten c.name, j.attempts⟩ c.name).bind
        Attempt.record? = some ⟨a.hash, d⟩ := by
      have hsome : Journal.last? ⟨j.session.forgotten c.name, j.attempts⟩ c.name = some a := ha
      rw [hsome, Option.bind_some, Attempt.record?, houtcome]
    rw [hlast] at hentry
    obtain ⟨hdir, -, -, hrepository, -⟩ := (h.kept c.name hc.name).stored a d ha houtcome
    rw [hname] at hdir hrepository
    have hfind : (j.session.files.find? j.session.base
        (repositoryPath j.session.cache c.name)).any (·.2.isDirectory) = true := by
      have hpath : repositoryPath j.session.cache c.name =
          Path.join (Path.join root c.name) repositoryName := h.join_eq c.name repositoryName
      rw [hpath, h.base_eq, h.anchor.find?_file h.ground.wellFormed (h.standing_of_last? ha) hc.name
        plain_repositoryName hdir hrepository]
      rfl
    have hbuild : on (buildEntry c.name c.hash c.build) (j.session.forgotten c.name) =
        (.ok true, j.session.forgotten c.name) := on_buildEntry_of_kept hentry hhash hfind
    refine ⟨(j.session.forgotten c.name).remembered c.name c.hash,
      on_ensure_of_ok h.sane hmem hbuild rfl, ?_, rfl, rfl⟩
    have := hforgotten.remembered (a := a) (by rw [hname]; exact ha) houtcome
    rwa [hname, hhash] at this

def Call.attempt (c : Call) (s : CacheSession) : Attempt :=
  ⟨c.name, c.hash, (s.built c.name c.build).1, (s.built c.name c.build).2⟩

def withData (t : FileTree) (place : Location) (name hash : String) (d : Definition) : FileTree :=
  t.put (place ++ [name, dataName]) (.text (CacheEntry.mk hash d).toJson.indented)

theorem Rebuilt.inside {t u : FileTree} {name hash : String}
    {result : Except Fault (Option Definition) × FileTree}
    (hr : Rebuilt t u start ps place name) (ha : Anchor t base root start ps place)
    (hb : BuiltInside u (place ++ [name, repositoryName]) hash result) :
    Rebuilt t result.2 start ps place name where
  wellFormed := hb.wellFormed
  mount := hb.mount.trans hr.mount
  standing := by
    refine hr.standing.mono ha.apart fun k hk hdir => ?_
    rw [FileTree.isDirectory, hb.others k, ← FileTree.isDirectory, hdir]
    rintro w hw rfl
    exact hk (name :: repositoryName :: w) (by simp) (by simp)
  entry := by
    rw [hb.others, hr.entry]
    intro w hw heq
    simp at heq
  repository := by
    rw [hb.others, hr.repository]
    intro w hw heq
    exact hw (by simpa using heq)
  others k hk := by
    rw [hb.others]
    · exact hr.others k hk
    · rintro w hw rfl
      exact hk ⟨repositoryName :: w, by simp⟩

theorem data_of_inside {u : FileTree} {name hash : String}
    {result : Except Fault (Option Definition) × FileTree}
    (hb : BuiltInside u (place ++ [name, repositoryName]) hash result)
    (hdata : u.get? (place ++ [name, dataName]) = none) :
    result.2.get? (place ++ [name, dataName]) = none := by
  rw [hb.others, hdata]
  intro w hw heq
  simp [dataName, repositoryName] at heq

theorem get?_withData {v : FileTree} {name hash : String} {d : Definition} {k : Location}
    (hv : v.WellFormed) (hdata : v.get? (place ++ [name, dataName]) = none) :
    (withData v place name hash d).get? k = if k = place ++ [name, dataName] then
      some (.text (CacheEntry.mk hash d).toJson.indented) else v.get? k :=
  get?_put hv hdata (by simp)

theorem Rebuilt.withData {t v : FileTree} {name : String} (hr : Rebuilt t v start ps place name)
    (hdata : v.get? (place ++ [name, dataName]) = none) (hash : String) (d : Definition) :
    Rebuilt t (withData v place name hash d) start ps place name where
  wellFormed := hr.wellFormed.put hdata fun s hs => by cases hs
  mount := hr.mount
  standing := by
    have hstay : ∀ k, v.isDirectory k = true →
        (CacheSession.withData v place name hash d).isDirectory k = true := by
      intro k hk
      rw [FileTree.isDirectory, get?_withData hr.wellFormed hdata, if_neg, ← FileTree.isDirectory, hk]
      rintro rfl
      simp [FileTree.isDirectory, hdata] at hk
    exact ⟨foldlM_step?_mono hr.standing.leads fun k _ => hstay k,
      hstay place hr.standing.isDirectory⟩
  entry := by
    rw [get?_withData hr.wellFormed hdata, if_neg (by simp), hr.entry]
  repository := by
    rw [get?_withData hr.wellFormed hdata, if_neg (by simp [dataName, repositoryName]),
      hr.repository]
  others k hk := by
    rw [get?_withData hr.wellFormed hdata, if_neg]
    · exact hr.others k hk
    · rintro rfl
      exact hk ⟨[dataName], by simp⟩

theorem kept_of_error {t v : FileTree} {a : Attempt} {e : Fault}
    (hr : Rebuilt t v start ps place a.name) (hdata : v.get? (place ++ [a.name, dataName]) = none)
    (houtcome : a.outcome = .error e) : Kept v start ps place a.name (some a) := by
  refine ⟨Or.inr ⟨hr.entry, hr.standing⟩, fun _ => hdata, fun a' d ha houtcome' => ?_⟩
  cases ha
  rw [houtcome] at houtcome'
  cases houtcome'

theorem kept_of_built {t u : FileTree} {a : Attempt} {d : Definition}
    (hr : Rebuilt t a.files start ps place a.name)
    (hdata : a.files.get? (place ++ [a.name, dataName]) = none)
    (hb : BuiltInside u (place ++ [a.name, repositoryName]) a.hash (a.outcome, a.files))
    (houtcome : a.outcome = .ok (some d)) :
    Kept (withData a.files place a.name a.hash d) start ps place a.name (some a) := by
  have hwith := hr.withData hdata a.hash d
  refine ⟨Or.inr ⟨hwith.entry, hwith.standing⟩, fun hnone => ?_, fun a' d' ha houtcome' => ?_⟩
  · simp [Attempt.record?, houtcome] at hnone
  · cases ha
    rw [houtcome] at houtcome'
    cases houtcome'
    refine ⟨hwith.entry, ?_, hb.survives d houtcome, hwith.repository, fun w hw => ?_⟩
    · rw [get?_withData hr.wellFormed hdata, if_pos rfl]
    · rw [get?_withData hr.wellFormed hdata, if_neg (by simp [dataName, repositoryName])]

theorem Sound.not_mem_built {name hash : String} (h : Sound base root start ps place j)
    (hnot : ∀ a d, j.last? name = some a → a.hash = hash → a.outcome ≠ .ok (some d)) :
    (name, hash) ∉ j.session.cache.built := by
  intro hmem
  obtain ⟨a, d, ha, hhash, houtcome⟩ := h.known _ _ hmem
  exact hnot a d ha hhash houtcome

/-- What was not built last is not found on the disk, so that its build is begun. -/
theorem Sound.on_buildEntry {name hash : String} (build : Builder)
    (h : Sound base root start ps place j) (hname : Plain name)
    (hnot : ∀ a d, j.last? name = some a → a.hash = hash → a.outcome ≠ .ok (some d)) :
    on (buildEntry name hash build) j.session = on (rebuild name hash build) j.session := by
  refine on_buildEntry_of_not_kept (h.on_stored hname) fun e he hhash => ?_
  obtain ⟨a, ha, hae⟩ := Option.bind_eq_some_iff.1 he
  obtain ⟨hhash', houtcome⟩ := Attempt.record?_eq_some.1 hae
  exact hnot a e.definition ha (hhash'.trans hhash) houtcome

theorem Sound.built_inside (h : Sound base root start ps place j)
    (hc : c.Proper j.session place) :
    ∃ u, j.session.prepared c.name = (.ok (place ++ [c.name, repositoryName]), u) ∧
      Rebuilt j.session.files u start ps place c.name ∧
      u.get? (place ++ [c.name, dataName]) = none ∧
      BuiltInside u (place ++ [c.name, repositoryName]) c.hash
        (j.session.built c.name c.build) := by
  obtain ⟨u, hmade, hr, hvacant, hdata⟩ := on_makeAnew h.anchor h.ground hc.name
    (h.kept c.name hc.name).clearable
  have hprepared : j.session.prepared c.name = (.ok (place ++ [c.name, repositoryName]), u) := by
    rw [prepared, h.base_eq, ← hmade, ← h.root_eq]
    rfl
  refine ⟨u, hprepared, hr, hdata, ?_⟩
  have hout := outside_file (hr.outside h.ground.outside) hr.entry fun s hs => by
    rw [hr.repository] at hs
    cases hs
  have hfind := (h.anchor.congr hr.mount).find?_file hr.wellFormed hr.standing hc.name
    plain_repositoryName hr.entry hr.repository
  have hinside := hc.build u base _ _ hr.wellFormed hfind hout hvacant
  rw [built, hprepared, h.base_eq, repositoryPath, h.join_eq]
  exact hinside

theorem Sound.on_writeData {v : FileTree} {name : String} (h : Sound base root start ps place j)
    (hname : Plain name) (hr : Rebuilt j.session.files v start ps place name)
    (hdata : v.get? (place ++ [name, dataName]) = none) (hash : String) (d : Definition) :
    on (writeHere j.session.base (dataPath j.session.cache name)
      (CacheEntry.mk hash d).toJson.indented) v = (.ok (), withData v place name hash d) := by
  have hdir : v.isDirectory (place ++ [name]) = true := by
    simp [FileTree.isDirectory, hr.entry, Entry.isDirectory]
  rw [dataPath, h.join_eq, h.base_eq]
  refine on_writeHere hr.wellFormed ?_ hdata ?_
  · exact (h.anchor.congr hr.mount).locate?_file hr.wellFormed hr.standing hname plain_dataName hdir
  · refine outside_file (hr.outside h.ground.outside) hr.entry fun s hs => ?_
    rw [hdata] at hs
    cases hs

theorem Sound.run_of_not_kept (h : Sound base root start ps place j)
    (hc : c.Proper j.session place) (hnot : ∀ a d, j.last? c.name = some a → a.hash = c.hash →
      a.outcome ≠ .ok (some d)) :
    (∃ e v, j.session.built c.name c.build = (.error e, v) ∧
      c.run j.session = (.error e, (j.session.forgotten c.name).begun v) ∧
      Rebuilt j.session.files v start ps place c.name ∧ Sound base root start ps place
        ⟨(j.session.forgotten c.name).begun v, c.attempt j.session :: j.attempts⟩) ∨
    ∃ d v, j.session.built c.name c.build = (.ok (some d), v) ∧
      c.run j.session = (((j.session.forgotten c.name).begun
        (withData v place c.name c.hash d)).remembered c.name c.hash).copied c.name c.target ∧
      Rebuilt j.session.files (withData v place c.name c.hash d) start ps place c.name ∧
      Sound base root start ps place ⟨((j.session.forgotten c.name).begun
        (withData v place c.name c.hash d)).remembered c.name c.hash,
          c.attempt j.session :: j.attempts⟩ := by
  have hmem := h.not_mem_built hnot
  have hforgotten := h.forgotten c.name
  have hforgot : ∀ hash, (c.name, hash) ∉ (j.session.forgotten c.name).cache.built := by
    simp [CacheSession.forgotten]
  have hbuildEntry := hforgotten.on_buildEntry c.build hc.name hnot
  obtain ⟨u, hprepared, hr, hdata, hb⟩ := h.built_inside hc
  have hr' := hr.inside h.anchor hb
  have hdata' := data_of_inside hb hdata
  rcases hbuilt : j.session.built c.name c.build with ⟨e | _ | d, v⟩
  · have hon : on (rebuild c.name c.hash c.build) (j.session.forgotten c.name) =
        (.error e, (j.session.forgotten c.name).begun v) := on_rebuild_of_error hprepared hbuilt
    rw [hbuilt] at hr' hdata'
    have houtcome : (c.attempt j.session).outcome = .error e := by
      rw [Call.attempt, hbuilt]
    have hkept : Kept v start ps place c.name (some (c.attempt j.session)) :=
      kept_of_error hr' hdata' houtcome
    exact Or.inl ⟨e, v, rfl, on_ensure_of_error h.sane hmem (hbuildEntry.trans hon), hr',
      hforgotten.begun hr' hkept hforgot⟩
  · rw [hbuilt] at hb
    exact absurd rfl hb.ends
  · have houtcome : (c.attempt j.session).outcome = .ok (some d) := by
      rw [Call.attempt, hbuilt]
    have hfiles : (c.attempt j.session).files = v := by
      rw [Call.attempt, hbuilt]
    have hkept := kept_of_built (a := c.attempt j.session) hr' hdata' hb houtcome
    rw [hfiles] at hkept
    rw [hbuilt] at hr' hdata'
    have hon : on (rebuild c.name c.hash c.build) (j.session.forgotten c.name) =
        (.ok true, (j.session.forgotten c.name).begun (withData v place c.name c.hash d)) :=
      on_rebuild_of_some hprepared hbuilt (h.on_writeData hc.name hr' hdata' c.hash d)
    have hwith := hr'.withData hdata' c.hash d
    have hbegun := hforgotten.begun (a := c.attempt j.session) hwith hkept hforgot
    refine Or.inr ⟨d, v, rfl, on_ensure_of_ok h.sane hmem (hbuildEntry.trans hon) rfl, hwith, ?_⟩
    exact hbegun.remembered (by simp [Journal.last?, Call.attempt]) houtcome

end ReleaseHistory.CacheSession
