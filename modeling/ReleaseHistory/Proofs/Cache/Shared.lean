import Mathlib.Logic.Function.Basic
import ReleaseHistory.Proofs.Cache.Runs

/-!
# Sessions that share a cache

Several sessions work with one directory, one call after the other. Each of them trusts what it knows
to be built and does not see that another one has built the name anew. So a call copies what the
last build for the name left, whoever began it. That is a build from the hash asked for, unless the
session knows the hash from before and another session has begun a build for the name since.
-/

namespace ReleaseHistory.CacheSession

open Operation FileTree

variable {files t u : FileTree} {base start place : Location} {root name hash target : String}
  {ps : List String} {j j' : Journal} {c : Call} {a : Attempt} {known : List (String × String)}
  {builds : Nat} {s : CacheSession}

/-! ### What builds leave -/

theorem Left.congr (h : Left t place a)
    (hsame : ∀ w, u.get? (place ++ a.name :: w) = t.get? (place ++ a.name :: w)) :
    Left u place a where
  entry := (hsame []).trans h.entry
  repository := (hsame [repositoryName]).trans h.repository
  same w hw := by
    rw [← h.same w hw, List.append_assoc]
    exact hsame (repositoryName :: w)

/-- What the last build under each name left is there. -/
def Journal.Whole (j : Journal) (place : Location) : Prop :=
  ∀ name a, j.last? name = some a → Left j.session.files place a

theorem Journal.Whole.congr (h : j.Whole place) (hattempts : j'.attempts = j.attempts)
    (hplace : ∀ k, place <+: k → j'.session.files.get? k = j.session.files.get? k) :
    j'.Whole place := by
  intro name a ha
  rw [Journal.last?, hattempts] at ha
  exact (h name a ha).congr fun _ => hplace _ (List.prefix_append ..)

theorem Journal.Whole.begun (h : j.Whole place) (hattempts : j'.attempts = a :: j.attempts)
    (hanchor : Anchor j.session.files base root start ps place)
    (hr : Rebuilt j.session.files j'.session.files start ps place a.name)
    (hleft : Left j'.session.files place a) : j'.Whole place := by
  intro name b hb
  rw [Journal.last?, hattempts, List.find?_cons] at hb
  split at hb
  · cases hb
    exact hleft
  · rename_i hne
    have hname : b.name = name := Journal.name_of_last? (j := j) hb
    refine (h name b hb).congr (hr.other_name hanchor ?_)
    rw [hname]
    intro heq
    simp [heq] at hne

/-- After a call, what the last builds left is there again, also of a build that failed. -/
theorem Sound.whole_after (h : Sound base root start ps place j) (hwhole : j.Whole place)
    (hc : c.Proper j.session place) : (j.after c).Whole place := by
  have htarget := hc.target
  rw [h.base_eq, h.root_eq] at htarget
  have hsession : (j.after c).session = (c.run j.session).2 := rfl
  by_cases hholds : j.Holds c.name c.hash
  · have hnone := h.attempt?_of_holds hc hholds
    obtain ⟨a, d, ha, hhash, houtcome⟩ := hholds
    obtain ⟨s, hrun, hs, hfiles, -⟩ := h.run_of_kept hc ha hhash houtcome
    rw [← hfiles] at htarget
    have hplace := (hs.copied hc.name ha houtcome htarget).2.1
    refine hwhole.congr ?_ fun k hk => ?_
    · rw [Journal.after, hnone]
      rfl
    · rw [hsession, hrun, hplace k hk, hfiles]
  · have hsome := h.attempt?_of_not_holds hc hholds
    have hnot : ∀ a d, j.last? c.name = some a → a.hash = c.hash → a.outcome ≠ .ok (some d) :=
      fun a d ha hhash houtcome => hholds ⟨a, d, ha, hhash, houtcome⟩
    have hattempts : (j.after c).attempts = c.attempt j.session :: j.attempts := by
      rw [Journal.after, hsome]
      rfl
    rcases h.run_of_not_kept hc hnot with ⟨e, v, hbuilt, hrun, hr, -⟩ | ⟨d, v, hbuilt, hrun, hr, hs⟩
    · have hfiles : (j.after c).session.files = v := by
        rw [hsession, hrun]
        rfl
      have hattempt : (c.attempt j.session).files = v := by
        rw [Call.attempt, hbuilt]
      rw [← hfiles] at hr hattempt
      refine hwhole.begun hattempts h.anchor hr ⟨hr.entry, hr.repository, fun w _ => ?_⟩
      rw [hattempt]
    · have hlast : Journal.last? ⟨((j.session.forgotten c.name).begun
          (withData v place c.name c.hash d)).remembered c.name c.hash,
            c.attempt j.session :: j.attempts⟩ c.name = some (c.attempt j.session) := by
        simp [Journal.last?, Call.attempt]
      have houtcome : (c.attempt j.session).outcome = .ok (some d) := by
        rw [Call.attempt, hbuilt]
      have hleft := ((hs.kept c.name hc.name).stored _ d hlast houtcome).left
      have hbegun := hwhole.begun rfl h.anchor hr hleft
      have hplace := (hs.copied hc.name hlast houtcome (htarget.rebuilt h.anchor hr)).2.1
      refine hbegun.congr hattempts fun k hk => ?_
      rw [hsession, hrun, hplace k hk]

/-! ### Knowledge of other builds -/

/-- A session that knows more, in which more builds were begun. -/
def knowing (s : CacheSession) (known : List (String × String)) (builds : Nat) : CacheSession :=
  { s with cache := { s.cache with
      built := known ++ s.cache.built
      builds := builds + s.cache.builds } }

theorem on_rebuild_knowing (build : Builder) : on (rebuild name hash build) (s.knowing known builds) =
    ((on (rebuild name hash build) s).1, (on (rebuild name hash build) s).2.knowing known builds) := by
  have hprepared : (s.knowing known builds).prepared name = s.prepared name := rfl
  have hbuilt : (s.knowing known builds).built name build = s.built name build := rfl
  rw [on_rebuild, on_rebuild, hprepared, hbuilt]
  rcases s.prepared name with ⟨_ | l, t⟩
  · rfl
  · rcases s.built name build with ⟨_ | _ | d, v⟩ <;> rfl

theorem on_buildEntry_knowing (build : Builder) :
    on (buildEntry name hash build) (s.knowing known builds) =
      ((on (buildEntry name hash build) s).1,
        (on (buildEntry name hash build) s).2.knowing known builds) := by
  have hentry : on ( entry? name) (s.knowing known builds) =
      ((on ( entry? name) s).1, s.knowing known builds) := by
    rw [on_entry, on_entry]
    rfl
  have hsame : (on ( entry? name) s).2 = s := by rw [on_entry]
  simp only [buildEntry, on_bind, on_get, hentry]
  rcases hread : on ( entry? name) s with ⟨_ | _ | e, s'⟩
  · rw [hread] at hsame
    rw [← hsame]
  · rw [hread] at hsame
    rw [← hsame]
    exact on_rebuild_knowing build
  · rw [hread] at hsame
    rw [← hsame]
    dsimp only
    split
    · simp only [on_bind, on_isDirectory]
      have hfind : (s'.knowing known builds).files.find? (s'.knowing known builds).base
          (repositoryPath (s'.knowing known builds).cache name) =
            s'.files.find? s'.base (repositoryPath s'.cache name) := rfl
      rw [hfind]
      split
      · rfl
      · exact on_rebuild_knowing build
    · exact on_rebuild_knowing build

theorem on_ensure_of_not_built {build : Builder} (hpoison : s.cache.isPoisoned = false)
    (h : (name, hash) ∉ s.cache.built) : on (ensure name hash build target) s =
      match on (buildEntry name hash build) (s.forgotten name) with
      | (.error e, t) => (.error e, t)
      | (.ok false, t) => (.ok false, t)
      | (.ok true, t) =>
        let copy := on (copyDirectory t.base (repositoryPath s.cache name) target) t.files
        (copy.1.map fun _ => true, { t.remembered name hash with files := copy.2 }) := by
  have hcontains : s.cache.built.contains (name, hash) = false := by simpa using h
  have hforgotten : on (modifyCache fun c => { c with built := c.built.filter (·.1 ≠ name) }) s =
      (.ok (), s.forgotten name) := rfl
  simp only [ensure, on_bind, on_get, hpoison, hcontains]
  simp only [on_bind, hforgotten, Bool.not_false, if_true, Bool.false_eq_true, if_false]
  rcases on (buildEntry name hash build) (s.forgotten name) with ⟨_ | _ | _, t⟩
  · rfl
  · rfl
  · have hremembered : on (modifyCache fun c => { c with built := c.built ++ [(name, hash)] }) t =
        (.ok (), t.remembered name hash) := rfl
    dsimp only
    simp only [on_bind, hremembered, Bool.not_true, Bool.false_eq_true, if_false, on_onFiles]
    have hfiles : (t.remembered name hash).files = t.files := rfl
    have hbase : (t.remembered name hash).base = t.base := rfl
    rw [hfiles, hbase]
    cases (on (copyDirectory t.base (repositoryPath s.cache name) target) t.files).1 <;> rfl

theorem run_knowing (hbuilt : s.cache.built = []) (hpoison : s.cache.isPoisoned = false)
    (hnew : (c.name, c.hash) ∉ known) : c.run (s.knowing known builds) =
      ((c.run s).1, (c.run s).2.knowing (known.filter (·.1 ≠ c.name)) builds) := by
  have hforgotten : s.forgotten c.name = s := by
    simp only [CacheSession.forgotten, hbuilt, List.filter_nil]
    rw [← hbuilt]
  have hforgets : (s.knowing known builds).forgotten c.name =
      s.knowing (known.filter (·.1 ≠ c.name)) builds := by
    simp only [CacheSession.forgotten, knowing, hbuilt, List.append_nil]
  have hnone : (c.name, c.hash) ∉ s.cache.built := by simp [hbuilt]
  have hother : (c.name, c.hash) ∉ (s.knowing known builds).cache.built := by
    simp [knowing, hbuilt, hnew]
  have hsane : (s.knowing known builds).cache.isPoisoned = false := hpoison
  rw [Call.run, on_ensure_of_not_built hsane hother, hforgets, on_buildEntry_knowing, Call.run,
    on_ensure_of_not_built hpoison hnone, hforgotten]
  rcases on (buildEntry c.name c.hash c.build) s with ⟨_ | _ | _, t⟩
  · rfl
  · rfl
  · simp only [knowing, CacheSession.remembered, List.append_assoc]
    rfl

theorem copied_knowing : (s.knowing known builds).copied name target =
    ((s.copied name target).1, (s.copied name target).2.knowing known builds) := rfl

/-! ### Sessions and their calls -/

/-- The files that sessions share, what each of them knows, and the builds that were begun, each with
the session that began it, the last one first. -/
structure Shared (ι : Type) where
  files : FileTree
  base : Location
  caches : ι → Cache
  attempts : List (ι × Attempt)

namespace Shared

variable {ι : Type}

def session (s : Shared ι) (i : ι) : CacheSession := ⟨s.files, s.base, s.caches i⟩

/-- The last build that was begun under a name, and the session that began it. -/
def last? (s : Shared ι) (name : String) : Option (ι × Attempt) :=
  s.attempts.find? (·.2.name = name)

def journal (s : Shared ι) (root : String) : Journal :=
  ⟨CacheSession.start s.files s.base root, s.attempts.map (·.2)⟩

/-- What a session has learned: a build was begun under a name and came to a definition, and since
then no build was begun under this name in the session itself. -/
def Learned (attempts : List (ι × Attempt)) (i : ι) (name hash : String) : Prop :=
  ∃ later p d earlier, attempts = later ++ p :: earlier ∧ p.2.name = name ∧ p.2.hash = hash ∧
    p.2.outcome = .ok (some d) ∧ ∀ q ∈ later, q.1 = i → q.2.name ≠ name

/-- Sessions that work with one cache. -/
structure Agreed (base : Location) (root : String) (start : Location) (ps : List String)
    (place : Location) (s : Shared ι) : Prop where
  base_eq : s.base = base
  root_eq : ∀ i, (s.caches i).root = root
  sane : ∀ i, (s.caches i).isPoisoned = false
  sound : Sound base root start ps place (s.journal root)
  whole : (s.journal root).Whole place
  learned : ∀ i name hash, (name, hash) ∈ (s.caches i).built → Learned s.attempts i name hash

variable {s : Shared ι} {i k : ι} {attempts more : List (ι × Attempt)}

theorem Learned.mono (h : Learned attempts i name hash)
    (hmore : ∀ q ∈ more, q.1 = i → q.2.name ≠ name) : Learned (more ++ attempts) i name hash := by
  obtain ⟨later, p, d, earlier, rfl, hname, hhash, houtcome, hlater⟩ := h
  refine ⟨more ++ later, p, d, earlier, (List.append_assoc ..).symm, hname, hhash, houtcome, ?_⟩
  intro q hq
  rcases List.mem_append.1 hq with hq | hq
  · exact hmore q hq
  · exact hlater q hq

theorem last?_journal (s : Shared ι) (root name : String) :
    (s.journal root).last? name = (s.last? name).map (·.2) := by
  rw [Journal.last?, journal, List.find?_map, last?]
  rfl

/-- The last build under a name is right for what was learned, or another session began it. -/
theorem Learned.last (h : Learned s.attempts i name hash) : ∃ k a, s.last? name = some (k, a) ∧
    (a.hash = hash ∧ (∃ d, a.outcome = .ok (some d)) ∨ k ≠ i) := by
  obtain ⟨later, p, d, earlier, hattempts, hname, hhash, houtcome, hlater⟩ := h
  rw [last?, hattempts, List.find?_append]
  cases hfind : later.find? (·.2.name = name) with
  | none =>
    refine ⟨p.1, p.2, ?_, .inl ⟨hhash, d, houtcome⟩⟩
    simp [hname]
  | some q =>
    refine ⟨q.1, q.2, rfl, .inr fun heq => ?_⟩
    have hq : q.2.name = name := by simpa using List.find?_some hfind
    exact hlater q (List.mem_of_find?_eq_some hfind) heq hq

/-- The last build under a name has been learned if it came to a definition. -/
theorem learned_of_last {a : Attempt} {d : Definition} (h : s.last? name = some (k, a))
    (houtcome : a.outcome = .ok (some d)) : Learned s.attempts i name a.hash := by
  obtain ⟨hname, later, earlier, hattempts, hlater⟩ := List.find?_eq_some_iff_append.1 h
  refine ⟨later, (k, a), d, earlier, hattempts, by simpa using hname, rfl, houtcome, ?_⟩
  intro q hq _
  simpa using hlater q hq

/-- What a session does is what one that knows nothing does, with what it knows. -/
theorem Agreed.session_eq (h : Agreed base root start ps place s) (i : ι) :
    s.session i = (s.journal root).session.knowing (s.caches i).built (s.caches i).builds := by
  have hroot := h.root_eq i
  have hsane := h.sane i
  rw [session, journal]
  rcases hcache : s.caches i with ⟨root', built, isPoisoned, builds⟩
  rw [hcache] at hroot hsane
  subst hroot hsane
  simp only [CacheSession.knowing, CacheSession.start, List.append_nil, Nat.add_zero]

theorem Agreed.proper (h : Agreed base root start ps place s) (hc : c.Proper (s.session i) place) :
    c.Proper (s.journal root).session place where
  name := hc.name
  build := hc.build
  target := by
    have htarget := hc.target
    rw [h.session_eq i] at htarget
    exact htarget

theorem Agreed.run_of_known (h : Agreed base root start ps place s)
    (hknown : (c.name, c.hash) ∈ (s.caches i).built) : c.run (s.session i) =
      (((s.journal root).session.copied c.name c.target).1,
        ((s.journal root).session.copied c.name c.target).2.knowing
          (s.caches i).built (s.caches i).builds) := by
  rw [← copied_knowing, ← h.session_eq i]
  exact on_ensure_of_built (h.sane i) hknown

theorem Agreed.run_of_unknown (h : Agreed base root start ps place s)
    (hunknown : (c.name, c.hash) ∉ (s.caches i).built) : c.run (s.session i) =
      ((c.run (s.journal root).session).1, (c.run (s.journal root).session).2.knowing
        ((s.caches i).built.filter (·.1 ≠ c.name)) (s.caches i).builds) := by
  rw [h.session_eq i]
  exact run_knowing rfl rfl hunknown

theorem Agreed.attempt?_of_known (h : Agreed base root start ps place s)
    (hknown : (c.name, c.hash) ∈ (s.caches i).built) : c.attempt? (s.session i) = none := by
  rw [Call.attempt?, h.run_of_known hknown]
  exact if_pos rfl

theorem Agreed.attempt?_of_unknown (h : Agreed base root start ps place s)
    (hunknown : (c.name, c.hash) ∉ (s.caches i).built) :
    c.attempt? (s.session i) = c.attempt? (s.journal root).session := by
  have hbuilt : (s.session i).built c.name c.build =
      (s.journal root).session.built c.name c.build := by
    rw [h.session_eq i]
    rfl
  have hbuilds : (c.run (s.session i)).2.cache.builds = (s.session i).cache.builds ↔
      (c.run (s.journal root).session).2.cache.builds = (s.journal root).session.cache.builds := by
    rw [h.run_of_unknown hunknown, h.session_eq i]
    exact Nat.add_left_cancel_iff
  simp only [Call.attempt?, hbuilds, hbuilt]

theorem of_mem_begun {q : ι × Attempt}
    (h : q ∈ ((c.attempt? (s.session i)).map fun a => (i, a)).toList) :
    q.1 = i ∧ q.2.name = c.name := by
  rw [Option.mem_toList, Option.map_eq_some_iff] at h
  obtain ⟨a, ha, rfl⟩ := h
  exact ⟨rfl, c.name_of_attempt? ha⟩

/-! ### What calls lead to -/

variable [DecidableEq ι]

def after (s : Shared ι) (i : ι) (c : Call) : Shared ι where
  files := (c.run (s.session i)).2.files
  base := s.base
  caches := Function.update s.caches i (c.run (s.session i)).2.cache
  attempts := ((c.attempt? (s.session i)).map fun a => (i, a)).toList ++ s.attempts

/-- What calls in any of the sessions lead to, one after the other; a session can begin anew. -/
inductive Reachable (files : FileTree) (base : Location) (root : String) (place : Location) :
    Shared ι → Prop
  | start : Reachable files base root place ⟨files, base, fun _ => ⟨root, [], false, 0⟩, []⟩
  | renew {s : Shared ι} (i : ι) (h : Reachable files base root place s) :
      Reachable files base root place
        { s with caches := Function.update s.caches i ⟨root, [], false, 0⟩ }
  | call {s : Shared ι} (i : ι) {c : Call} (h : Reachable files base root place s)
      (hc : c.Proper (s.session i) place) : Reachable files base root place (s.after i c)

theorem journal_after_of_known (h : Agreed base root start ps place s)
    (hknown : (c.name, c.hash) ∈ (s.caches i).built) : (s.after i c).journal root =
      ⟨((s.journal root).session.copied c.name c.target).2.renewed, (s.journal root).attempts⟩ := by
  rw [journal, after, h.attempt?_of_known hknown, h.run_of_known hknown]
  rfl

theorem journal_after_of_unknown (h : Agreed base root start ps place s)
    (hc : c.Proper (s.session i) place) (hunknown : (c.name, c.hash) ∉ (s.caches i).built) :
    (s.after i c).journal root = ⟨((s.journal root).after c).session.renewed,
      ((s.journal root).after c).attempts⟩ := by
  have hsound := h.sound.after (h.proper hc)
  have hbase : ((s.journal root).after c).session.base = s.base := hsound.base_eq.trans h.base_eq.symm
  rw [journal, after, h.attempt?_of_unknown hunknown, h.run_of_unknown hunknown,
    CacheSession.renewed, hbase, hsound.root_eq]
  simp only [Journal.after, journal, List.map_append]
  cases c.attempt? (CacheSession.start s.files s.base root) <;> rfl

theorem Agreed.after_of_known (h : Agreed base root start ps place s)
    (hc : c.Proper (s.session i) place) (hknown : (c.name, c.hash) ∈ (s.caches i).built) :
    Agreed base root start ps place (s.after i c) := by
  have htarget := (h.proper hc).target
  rw [h.sound.base_eq, h.sound.root_eq] at htarget
  obtain ⟨k, a, hlast, -⟩ := (h.learned i _ _ hknown).last
  have hjournal : (s.journal root).last? c.name = some a := by
    rw [last?_journal, hlast]
    rfl
  obtain ⟨hsound, hplace, -⟩ :=
    h.sound.copied_left hc.name hjournal (h.whole c.name a hjournal) htarget
  have hcaches : (s.after i c).caches = s.caches := by
    have hsame : (c.run (s.session i)).2.cache = s.caches i := by
      rw [Call.run, on_ensure_of_built (h.sane i) hknown]
      rfl
    rw [Shared.after, hsame, Function.update_eq_self]
  have hattempts : (s.after i c).attempts = s.attempts := by
    rw [Shared.after, h.attempt?_of_known hknown]
    rfl
  refine ⟨h.base_eq, ?_, ?_, ?_, ?_, ?_⟩
  · rw [hcaches]
    exact h.root_eq
  · rw [hcaches]
    exact h.sane
  · rw [journal_after_of_known h hknown]
    exact hsound.renewed
  · rw [journal_after_of_known h hknown]
    exact h.whole.congr rfl hplace
  · rw [hcaches, hattempts]
    exact h.learned

theorem Agreed.learned_after (h : Agreed base root start ps place s)
    (hc : c.Proper (s.session i) place) (hunknown : (c.name, c.hash) ∉ (s.caches i).built) :
    ∀ k name hash, (name, hash) ∈ ((s.after i c).caches k).built →
      Learned (s.after i c).attempts k name hash := by
  refine (Function.forall_update_iff s.caches fun k cache => ∀ name hash,
    (name, hash) ∈ cache.built → Learned (s.after i c).attempts k name hash).2 ⟨?_, ?_⟩
  · intro name hash hmem
    rw [h.run_of_unknown hunknown] at hmem
    rcases List.mem_append.1 hmem with hmem | hmem
    · -- what was known before is about other names
      obtain ⟨hmem, hne⟩ := List.mem_filter.1 hmem
      refine (h.learned i name hash hmem).mono fun q hq _ => ?_
      rw [(of_mem_begun hq).2]
      rintro rfl
      simp at hne
    · obtain ⟨a, d, ha, rfl, houtcome⟩ := (h.sound.after (h.proper hc)).known name hash hmem
      have hlast : ((s.after i c).journal root).last? name = some a := by
        rw [journal_after_of_unknown h hc hunknown]
        exact ha
      rw [last?_journal, Option.map_eq_some_iff] at hlast
      obtain ⟨⟨k, a'⟩, hlast, rfl⟩ := hlast
      exact learned_of_last hlast houtcome
  · intro k hk name hash hmem
    exact (h.learned k name hash hmem).mono fun q hq heq =>
      absurd (heq.symm.trans (of_mem_begun hq).1) hk

theorem Agreed.after_of_unknown (h : Agreed base root start ps place s)
    (hc : c.Proper (s.session i) place) (hunknown : (c.name, c.hash) ∉ (s.caches i).built) :
    Agreed base root start ps place (s.after i c) := by
  have hproper := h.proper hc
  have hsound := h.sound.after hproper
  have hwhole := h.sound.whole_after h.whole hproper
  have hrun := h.run_of_unknown hunknown
  have hjournal := journal_after_of_unknown h hc hunknown
  refine ⟨h.base_eq, ?_, ?_, ?_, ?_, h.learned_after hc hunknown⟩
  · refine (Function.forall_update_iff s.caches fun _ cache => cache.root = root).2
      ⟨?_, fun k _ => h.root_eq k⟩
    rw [hrun]
    exact hsound.root_eq
  · refine (Function.forall_update_iff s.caches fun _ cache => cache.isPoisoned = false).2
      ⟨?_, fun k _ => h.sane k⟩
    rw [hrun]
    exact hsound.sane
  · rw [hjournal]
    exact hsound.renewed
  · rw [hjournal]
    exact hwhole.congr rfl fun _ _ => rfl

theorem Agreed.after (h : Agreed base root start ps place s) (hc : c.Proper (s.session i) place) :
    Agreed base root start ps place (s.after i c) := by
  by_cases hknown : (c.name, c.hash) ∈ (s.caches i).built
  · exact h.after_of_known hc hknown
  · exact h.after_of_unknown hc hknown

theorem Agreed.renewed (h : Agreed base root start ps place s) (i : ι) :
    Agreed base root start ps place
      { s with caches := Function.update s.caches i ⟨root, [], false, 0⟩ } where
  base_eq := h.base_eq
  root_eq := (Function.forall_update_iff s.caches fun _ cache => cache.root = root).2
    ⟨rfl, fun k _ => h.root_eq k⟩
  sane := (Function.forall_update_iff s.caches fun _ cache => cache.isPoisoned = false).2
    ⟨rfl, fun k _ => h.sane k⟩
  sound := h.sound
  whole := h.whole
  learned := (Function.forall_update_iff s.caches fun k cache => ∀ name hash,
      (name, hash) ∈ cache.built → Learned s.attempts k name hash).2
    ⟨fun _ _ => nofun, fun k _ => h.learned k⟩

theorem Reachable.agreed (h : s.Reachable files base root place)
    (ha : Anchor files base root start ps place) (hg : Ground files start ps place)
    (hroot : EmptyRoot files base root place) : Agreed base root start ps place s := by
  induction h with
  | start =>
    refine ⟨rfl, fun _ => rfl, fun _ => rfl, hroot.sound ha hg, ?_, ?_⟩
    · intro name a hlast
      cases hlast
    · intro i name hash hmem
      cases hmem
  | renew i _ ih => exact ih.renewed i
  | call i _ hc ih => exact ih.after hc

end Shared

/-! ### What a call copies -/

/-- A call in one of several sessions that share a cache copies what the last build for the name left,
also where that build failed. It was a build from the hash asked for and came to a definition, unless
another session began it and the session of the call knew the hash from before. -/
theorem run_shared {ι : Type} [DecidableEq ι] {s : Shared ι} {i : ι}
    (hroot : EmptyRoot files base root place) (hs : s.Reachable files base root place)
    (hc : c.Proper (s.session i) place) (hok : (c.run (s.session i)).1 = .ok true) :
    ∃ k a into, (s.after i c).last? c.name = some (k, a) ∧
      (c.run (s.session i)).2.files.locate? base c.target = some into ∧
      (∀ w, w ≠ [] → (c.run (s.session i)).2.files.get? (into ++ w) =
        a.files.get? (place ++ [c.name, repositoryName] ++ w)) ∧
      (a.hash = c.hash ∧ (∃ d, a.outcome = .ok (some d)) ∨
        k ≠ i ∧ (c.name, c.hash) ∈ (s.caches i).built) := by
  obtain ⟨start, ps, hanchor, hground⟩ := hroot.anchor
  have h := hs.agreed hanchor hground hroot
  have hproper := h.proper hc
  by_cases hknown : (c.name, c.hash) ∈ (s.caches i).built
  · obtain ⟨k, a, hlast, hright⟩ := (h.learned i _ _ hknown).last
    have hjournal : (s.journal root).last? c.name = some a := by
      rw [Shared.last?_journal, hlast]
      rfl
    have htarget := hproper.target
    rw [h.sound.base_eq, h.sound.root_eq] at htarget
    have hcopied := (h.sound.copied_left hc.name hjournal (h.whole c.name a hjournal) htarget).2.2.2
    rw [h.run_of_known hknown] at hok ⊢
    obtain ⟨into, hinto, hsame⟩ := hcopied hok
    have hafter : (s.after i c).last? c.name = some (k, a) := by
      rw [Shared.last?, Shared.after, h.attempt?_of_known hknown]
      exact hlast
    refine ⟨k, a, into, hafter, hinto, hsame, ?_⟩
    rcases hright with hright | hother
    · exact .inl hright
    · exact .inr ⟨hother, hknown⟩
  · have hrun := h.run_of_unknown hknown
    rw [hrun] at hok ⊢
    rcases h.sound.run_cases hproper with
      ⟨e, v, herror, -⟩ | ⟨t, a, d, hcopy, ht, ha, hhash, houtcome, htarget, -⟩
    · rw [herror] at hok
      cases hok
    · have hcopied := (ht.copied hc.name ha houtcome htarget).2.2.2
      rw [← hcopy] at hcopied
      obtain ⟨into, hinto, hsame⟩ := hcopied hok
      have hlast : ((s.after i c).journal root).last? c.name = some a := by
        rw [Shared.journal_after_of_unknown h hc hknown]
        exact ha
      rw [Shared.last?_journal, Option.map_eq_some_iff] at hlast
      obtain ⟨⟨k, a'⟩, hlast, rfl⟩ := hlast
      exact ⟨k, a', into, hlast, hinto, hsame, .inl ⟨hhash, d, houtcome⟩⟩

/-! ### A name built by two sessions -/

/-- The call of the first session again. -/
def thirdCall : Call := ⟨"demo", "h1", marking "one", "third"⟩

def opened : Shared Bool := ⟨noFiles, [], fun _ => ⟨"cache", [], false, 0⟩, []⟩

def once : Shared Bool := opened.after false firstCall

def twice : Shared Bool := once.after true secondCall

theorem proper_of_reachable {s : Shared Bool} {i : Bool} (hs : s.Reachable noFiles [] "cache" ["cache"])
    (hname : Plain c.name) (hbuild : Builder.StaysInside c.build c.hash) (htarget : Plain c.target)
    (hne : "cache" ≠ c.target)
    (hfree : (s.files.entries.all fun entry => entry.1.head? ≠ some c.target) = true)
    (hstores : (s.files.entries.all fun entry => !isStore entry.2) = true) :
    c.Proper (s.session i) ["cache"] := by
  obtain ⟨start, ps, hanchor, hground⟩ := emptyRoot_noFiles.anchor
  have h := hs.agreed hanchor hground emptyRoot_noFiles
  refine ⟨hname, hbuild, ?_⟩
  rw [h.session_eq i]
  show FreshTarget s.files s.base "cache" c.target ["cache"]
  rw [h.base_eq]
  exact freshTarget_of_all h.sound.ground.wellFormed (by decide) htarget hne hfree hstores

theorem once_reachable : once.Reachable noFiles [] "cache" ["cache"] :=
  .call false .start firstCall_proper

theorem twice_reachable : twice.Reachable noFiles [] "cache" ["cache"] := by
  refine .call true once_reachable (proper_of_reachable once_reachable (by decide) ?_ (by decide)
    (by decide) (by decide +kernel) (by decide +kernel))
  exact marking_staysInside (survives_of_map (by decide +kernel))

theorem thirdCall_proper : thirdCall.Proper (twice.session false) ["cache"] := by
  refine proper_of_reachable twice_reachable (by decide) ?_ (by decide) (by decide)
    (by decide +kernel) (by decide +kernel)
  exact marking_staysInside (survives_of_map (by decide +kernel))

theorem run_thirdCall : (thirdCall.run (twice.session false)).1 = .ok true :=
  Except.toOption_eq_some.1 (by decide +kernel)

def textAt (t : FileTree) (l : Location) : Option String :=
  match t.get? l with
  | some (.text text) => some text
  | _ => none

/-- The first session asks for its hash again and is given what the other one built: no build for
that hash has left the tree that was copied. -/
theorem copied_foreign : twice.Reachable noFiles [] "cache" ["cache"] ∧
    thirdCall.Proper (twice.session false) ["cache"] ∧
    (thirdCall.run (twice.session false)).1 = .ok true ∧
    (thirdCall.run (twice.session false)).2.files.locate? [] "third" = some ["third"] ∧
    ∀ p ∈ (twice.after false thirdCall).attempts, p.2.name = "demo" → p.2.hash = "h1" →
      ∃ w, w ≠ [] ∧ (thirdCall.run (twice.session false)).2.files.get? (["third"] ++ w) ≠
        p.2.files.get? (["cache"] ++ ["demo", repositoryName] ++ w) := by
  refine ⟨twice_reachable, thirdCall_proper, run_thirdCall, by decide +kernel, ?_⟩
  intro p hp hname hhash
  have hcopied : textAt (thirdCall.run (twice.session false)).2.files ["third", "MARK"] =
      some "two" := by decide +kernel
  have hbuilt : ∀ p ∈ (twice.after false thirdCall).attempts, p.2.hash = "h1" →
      textAt p.2.files ["cache", "demo", repositoryName, "MARK"] = some "one" := by
    decide +kernel
  refine ⟨["MARK"], by simp, fun heq => ?_⟩
  have hmark := hbuilt p hp hhash
  rw [textAt] at hcopied hmark
  have heq' : (thirdCall.run (twice.session false)).2.files.get? ["third", "MARK"] =
      p.2.files.get? ["cache", "demo", repositoryName, "MARK"] := heq
  rw [heq', hmark] at hcopied
  exact absurd hcopied (by decide)

/-- What the third call copies was left by the build of the other session. -/
theorem run_shared_third : EmptyRoot noFiles [] "cache" ["cache"] ∧
    twice.Reachable noFiles [] "cache" ["cache"] ∧
    thirdCall.Proper (twice.session false) ["cache"] ∧
    (thirdCall.run (twice.session false)).1 = .ok true ∧
    ∃ k a into, (twice.after false thirdCall).last? "demo" = some (k, a) ∧
      (thirdCall.run (twice.session false)).2.files.locate? [] "third" = some into ∧
      (∀ w, w ≠ [] → (thirdCall.run (twice.session false)).2.files.get? (into ++ w) =
        a.files.get? (["cache"] ++ ["demo", repositoryName] ++ w)) ∧
      (a.hash = "h1" ∧ (∃ d, a.outcome = .ok (some d)) ∨
        k ≠ false ∧ ("demo", "h1") ∈ (twice.caches false).built) :=
  ⟨emptyRoot_noFiles, twice_reachable, thirdCall_proper, run_thirdCall,
    run_shared emptyRoot_noFiles twice_reachable thirdCall_proper run_thirdCall⟩

end ReleaseHistory.CacheSession
