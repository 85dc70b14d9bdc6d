import ReleaseHistory.Proofs.Cache.Journal

/-!
# Runs of a cache

A cache begins in a root that is empty or has to be made. Calls and new sessions follow each other
in any order. After each of them the journal is that of a cache that works, so that a call builds
exactly if the last build for its name was not for the same hash or failed, and copies what that
build left.
-/

namespace ReleaseHistory.CacheSession

open Operation FileTree

variable {files : FileTree} {base start place : Location} {root : String} {ps : List String}
  {j : Journal} {c : Call}

/-- A root in which nothing is yet. It is there or can be made, and the way to it does not go
below it. -/
structure EmptyRoot (files : FileTree) (base : Location) (root : String) (place : Location) :
    Prop where
  wellFormed : files.WellFormed
  made : ∃ t, on (createDirectory base root) files = (.ok place, t) ∧ t.isDirectory place = true
  vacant : files.Vacant place
  outside : files.OutsideStores place
  way : ∀ k ∈ files.way base root, ∀ w, w ≠ [] → k ≠ place ++ w

theorem EmptyRoot.anchor (h : EmptyRoot files base root place) :
    ∃ start ps, Anchor files base root start ps place ∧ Ground files start ps place := by
  obtain ⟨t, hmade, hdir⟩ := h.made
  obtain ⟨hnull, start, parts, ho, hon⟩ := createDirectory_eq_ok hmade
  have hway : files.way base root = passed start parts := by
    simp [FileTree.way, ho]
  obtain ⟨ps, hps, horigin⟩ := origin?_join h.wellFormed ho
  have hready : ∃ t, on (createDirectories start ps) files = (.ok place, t) ∧
      t.isDirectory place = true := by
    rcases hps with rfl | rfl
    · exact ⟨t, hon, hdir⟩
    · rw [createDirectories_append h.wellFormed] at hon
      obtain ⟨k, t', hk, hhere⟩ := bind_eq_ok.1 hon
      have ht' := (grown_createDirectories h.wellFormed hk).wellFormed
      rcases createDirectories_cons ht' k "." with herror | ⟨t'', -, hstep, -, hrest⟩
      · rw [herror] at hhere
        cases hhere
      · rw [hrest] at hhere
        cases hhere
        exact ⟨t', hk, (step?_eq_some.1 hstep).1⟩
  obtain ⟨t', hon', hdir'⟩ := hready
  have hsub : passed start ps ⊆ files.way base root := by
    rw [hway]
    rcases hps with rfl | rfl
    · exact List.Subset.refl _
    · rw [passed_append]
      exact List.subset_append_left _ _
  have hleads := eq_foldl_go (foldlM_of_createDirectories h.wellFormed hon').1
  refine ⟨start, ps, ⟨hnull, horigin, hleads, hsub, fun k hk w hw heq => ?_⟩,
    ⟨h.wellFormed, h.outside, t', hon', hdir'⟩⟩
  rcases List.mem_cons.1 hk with rfl | hk
  · -- the way cannot begin below the root, where there is no directory yet
    cases ps with
    | nil =>
      simp only [List.foldl_nil] at hleads
      rw [hleads] at heq
      exact hw (by simpa using heq)
    | cons part ps =>
      rcases createDirectories_cons h.wellFormed k part with herror | ⟨-, -, hstep, -⟩
      · rw [herror] at hon'
        cases hon'
      · have := (step?_eq_some.1 hstep).1
        rw [heq, FileTree.isDirectory, h.vacant w hw] at this
        cases this
  · exact h.way k (hsub hk) w hw heq

theorem EmptyRoot.sound (h : EmptyRoot files base root place)
    (ha : Anchor files base root start ps place) (hg : Ground files start ps place) :
    Sound base root start ps place ⟨CacheSession.start files base root, []⟩ where
  base_eq := rfl
  root_eq := rfl
  sane := rfl
  anchor := ha
  ground := hg
  standing h := absurd rfl h
  kept name _ := by
    refine ⟨Or.inl fun w => h.vacant _ (by simp), fun _ => h.vacant _ (by simp), fun a d ha => ?_⟩
    cases ha
  known name hash hmem := by cases hmem

/-! ### Journals of runs -/

/-- The journals that calls and new sessions lead to. -/
inductive Journal.Reachable (files : FileTree) (base : Location) (root : String)
    (place : Location) : Journal → Prop
  | start : Reachable files base root place ⟨CacheSession.start files base root, []⟩
  | renew {j : Journal} (h : Reachable files base root place j) :
      Reachable files base root place ⟨j.session.renewed, j.attempts⟩
  | call {j : Journal} {c : Call} (h : Reachable files base root place j)
      (hc : c.Proper j.session place) : Reachable files base root place (j.after c)

/-- The last build under a name was from a hash and came to a definition. -/
def Journal.Holds (j : Journal) (name hash : String) : Prop :=
  ∃ a d, j.last? name = some a ∧ a.hash = hash ∧ a.outcome = .ok (some d)

theorem copied_builds (s : CacheSession) (name target : String) :
    (s.copied name target).2.cache.builds = s.cache.builds :=
  rfl

theorem Sound.attempt?_of_holds (h : Sound base root start ps place j)
    (hc : c.Proper j.session place) (hholds : j.Holds c.name c.hash) :
    c.attempt? j.session = none := by
  obtain ⟨a, d, ha, hhash, houtcome⟩ := hholds
  obtain ⟨s, hrun, -, -, hbuilds⟩ := h.run_of_kept hc ha hhash houtcome
  rw [Call.attempt?, hrun, copied_builds, if_pos hbuilds]

theorem Sound.attempt?_of_not_holds (h : Sound base root start ps place j)
    (hc : c.Proper j.session place) (hholds : ¬j.Holds c.name c.hash) :
    c.attempt? j.session = some (c.attempt j.session) := by
  have hnot : ∀ a d, j.last? c.name = some a → a.hash = c.hash → a.outcome ≠ .ok (some d) :=
    fun a d ha hhash houtcome => hholds ⟨a, d, ha, hhash, houtcome⟩
  have hbuilds : (c.run j.session).2.cache.builds = j.session.cache.builds + 1 := by
    rcases h.run_of_not_kept hc hnot with ⟨e, v, -, hrun, -⟩ | ⟨d, v, -, hrun, -⟩
    · rw [hrun]
      rfl
    · rw [hrun]
      rfl
  rw [Call.attempt?, if_neg (by omega)]
  rfl

/-- A call is refused by its builder, or it copies what the last build for its name left. -/
theorem Sound.run_cases (h : Sound base root start ps place j) (hc : c.Proper j.session place) :
    (∃ e v, c.run j.session = (.error e, (j.session.forgotten c.name).begun v) ∧
      Rebuilt j.session.files v start ps place c.name ∧
        Sound base root start ps place (j.after c)) ∨
    ∃ s a d, c.run j.session = s.copied c.name c.target ∧
      Sound base root start ps place ⟨s, (j.after c).attempts⟩ ∧
      (j.after c).last? c.name = some a ∧ a.hash = c.hash ∧ a.outcome = .ok (some d) ∧
      FreshTarget s.files base root c.target place ∧ ∀ name, name ≠ c.name → ∀ w,
        s.files.get? (place ++ name :: w) = j.session.files.get? (place ++ name :: w) := by
  have htarget := hc.target
  rw [h.base_eq, h.root_eq] at htarget
  by_cases hholds : j.Holds c.name c.hash
  · have hnone := h.attempt?_of_holds hc hholds
    obtain ⟨a, d, ha, hhash, houtcome⟩ := hholds
    obtain ⟨s, hrun, hs, hfiles, -⟩ := h.run_of_kept hc ha hhash houtcome
    have hattempts : (j.after c).attempts = j.attempts := by rw [Journal.after, hnone]; rfl
    refine Or.inr ⟨s, a, d, hrun, by rwa [hattempts], ?_, hhash, houtcome, by rwa [hfiles],
      fun name _ w => by rw [hfiles]⟩
    rw [Journal.last?, hattempts]
    exact ha
  · have hsome := h.attempt?_of_not_holds hc hholds
    have hnot : ∀ a d, j.last? c.name = some a → a.hash = c.hash → a.outcome ≠ .ok (some d) :=
      fun a d ha hhash houtcome => hholds ⟨a, d, ha, hhash, houtcome⟩
    have hattempts : (j.after c).attempts = c.attempt j.session :: j.attempts := by
      rw [Journal.after, hsome]
      rfl
    rcases h.run_of_not_kept hc hnot with ⟨e, v, -, hrun, hr, hs⟩ | ⟨d, v, hbuilt, hrun, hr, hs⟩
    · refine Or.inl ⟨e, v, hrun, hr, ?_⟩
      rw [Journal.after, hrun, hsome]
      exact hs
    · refine Or.inr ⟨_, c.attempt j.session, d, hrun, by rwa [hattempts], ?_, rfl, ?_,
        htarget.rebuilt h.anchor hr,
        fun name hne => hr.other_name h.anchor hne⟩
      · rw [Journal.last?, hattempts]
        simp [Call.attempt]
      · rw [Call.attempt, hbuilt]

theorem Sound.after (h : Sound base root start ps place j) (hc : c.Proper j.session place) :
    Sound base root start ps place (j.after c) := by
  rcases h.run_cases hc with ⟨e, v, -, -, hs⟩ | ⟨s, a, d, hrun, hs, ha, -, houtcome, htarget, -⟩
  · exact hs
  · have hcopied := (hs.copied hc.name ha houtcome htarget).1
    rwa [← hrun] at hcopied

/-- All journals of a cache that began in an empty root are those of a cache that works. -/
theorem Journal.Reachable.sound (h : j.Reachable files base root place)
    (ha : Anchor files base root start ps place) (hg : Ground files start ps place)
    (hroot : EmptyRoot files base root place) : Sound base root start ps place j := by
  induction h with
  | start => exact hroot.sound ha hg
  | renew _ ih => exact ih.renewed
  | call _ hc ih => exact ih.after hc

theorem Sound.run_renewed (h : Sound base root start ps place j) (hc : c.Proper j.session place) :
    (c.run j.session.renewed).1 = (c.run j.session).1 ∧
      (c.run j.session.renewed).2.files = (c.run j.session).2.files := by
  have hc' : c.Proper j.session.renewed place := ⟨hc.name, hc.build, hc.target⟩
  have hcopied : ∀ s s' : CacheSession, s.files = s'.files → s.base = s'.base →
      s.cache.root = s'.cache.root → (s.copied c.name c.target).1 = (s'.copied c.name c.target).1 ∧
        (s.copied c.name c.target).2.files = (s'.copied c.name c.target).2.files := by
    rintro ⟨files, base, cache⟩ ⟨files', base', cache'⟩ hfiles hbase hcache
    dsimp only at hfiles hbase hcache
    subst hfiles hbase
    simp only [CacheSession.copied, repositoryPath, entryPath, hcache, and_self]
  by_cases hholds : j.Holds c.name c.hash
  · obtain ⟨a, d, ha, hhash, houtcome⟩ := hholds
    obtain ⟨s, hrun, hs, hfiles, -⟩ := h.run_of_kept hc ha hhash houtcome
    obtain ⟨s', hrun', hs', hfiles', -⟩ := h.renewed.run_of_kept hc' ha hhash houtcome
    rw [hrun, hrun']
    exact hcopied s' s (hfiles'.trans hfiles.symm) (hs'.base_eq.trans hs.base_eq.symm)
      (hs'.root_eq.trans hs.root_eq.symm)
  · have hnot : ∀ a d, j.last? c.name = some a → a.hash = c.hash → a.outcome ≠ .ok (some d) :=
      fun a d ha hhash houtcome => hholds ⟨a, d, ha, hhash, houtcome⟩
    have hbuilt : j.session.renewed.built c.name c.build = j.session.built c.name c.build := rfl
    have hrenewed := h.renewed.run_of_not_kept hc' hnot
    rw [hbuilt] at hrenewed
    rcases h.run_of_not_kept hc hnot with ⟨e, v, hv, hrun, -⟩ | ⟨d, v, hv, hrun, -⟩
    · rw [hv] at hrenewed
      rcases hrenewed with ⟨e', v', heq, hrun', -⟩ | ⟨d', v', heq, -⟩
      · cases heq
        rw [hrun, hrun']
        exact ⟨rfl, rfl⟩
      · cases heq
    · rw [hv] at hrenewed
      rcases hrenewed with ⟨e', v', heq, -⟩ | ⟨d', v', heq, hrun', -⟩
      · cases heq
      · cases heq
        rw [hrun, hrun']
        exact hcopied _ _ rfl rfl rfl

/-- What a call to a cache does, whatever was done before. A build is begun exactly if the last
one for the name failed or was for another hash, or there was none. A call that succeeds copies what
the last build left. What is kept under any name is what its last build came to, and other names
are left alone. What the session knows makes no difference. -/
theorem run_of_reachable (hroot : EmptyRoot files base root place)
    (hj : j.Reachable files base root place) (hc : c.Proper j.session place) :
    ((c.run j.session).2.cache.builds ≠ j.session.cache.builds ↔ ¬j.Holds c.name c.hash) ∧
    (c.run j.session).1 ≠ .ok false ∧
    ((c.run j.session).1 = .ok true → ∃ a d into, (j.after c).last? c.name = some a ∧
      a.hash = c.hash ∧ a.outcome = .ok (some d) ∧
      (c.run j.session).2.files.locate? j.session.base c.target = some into ∧ ∀ w, w ≠ [] →
        (c.run j.session).2.files.get? (into ++ w) =
          a.files.get? (place ++ [c.name, repositoryName] ++ w)) ∧
    (∀ name, Plain name → on ( entry? name) (c.run j.session).2 =
      (.ok (((j.after c).last? name).bind Attempt.record?), (c.run j.session).2)) ∧
    (∀ name, name ≠ c.name → ∀ w, (c.run j.session).2.files.get? (place ++ name :: w) =
      j.session.files.get? (place ++ name :: w)) ∧
    (c.run j.session.renewed).1 = (c.run j.session).1 ∧
      (c.run j.session.renewed).2.files = (c.run j.session).2.files := by
  obtain ⟨start, ps, ha, hg⟩ := hroot.anchor
  have h := hj.sound ha hg hroot
  have hafter := h.after hc
  refine ⟨?_, ?_, ?_, fun name hname => hafter.on_stored hname, ?_, h.run_renewed hc⟩
  · by_cases hholds : j.Holds c.name c.hash
    · have hnone := h.attempt?_of_holds hc hholds
      simp only [hholds, not_true_eq_false, iff_false, not_not]
      by_contra hne
      rw [Call.attempt?, if_neg hne] at hnone
      cases hnone
    · have hsome := h.attempt?_of_not_holds hc hholds
      simp only [hholds, not_false_eq_true, iff_true]
      intro heq
      rw [Call.attempt?, if_pos heq] at hsome
      cases hsome
  · rcases h.run_cases hc with ⟨e, v, hrun, -⟩ | ⟨s, a, d, hrun, hs, ha, -, houtcome, htarget, -⟩
    · rw [hrun]
      simp
    · rw [hrun]
      exact (hs.copied hc.name ha houtcome htarget).2.2.1
  · rcases h.run_cases hc with
      ⟨e, v, hrun, -⟩ | ⟨s, a, d, hrun, hs, ha, hhash, houtcome, htarget, -⟩
    · rw [hrun]
      simp
    · intro hok
      rw [hrun] at hok ⊢
      obtain ⟨into, hinto, hsame⟩ := (hs.copied hc.name ha houtcome htarget).2.2.2 hok
      rw [h.base_eq]
      exact ⟨a, d, into, ha, hhash, houtcome, hinto, hsame⟩
  · intro name hne w
    rcases h.run_cases hc with
      ⟨e, v, hrun, hr, -⟩ | ⟨s, a, d, hrun, hs, ha, -, houtcome, htarget, hothers⟩
    · rw [hrun]
      exact hr.other_name h.anchor hne w
    · rw [hrun, ← hothers name hne w]
      exact (hs.copied hc.name ha houtcome htarget).2.1 _ (List.prefix_append ..)

/-! ### A cache beside its copies -/

def marking (mark : String) : Builder := fun base path => do
  match (← get).locate? base path with
  | some l =>
    modify fun t => t.put (l ++ ["MARK"]) (.text mark)
    return some []
  | none => throw .file

theorem marking_staysInside {mark hash : String}
    (hsurvives : CacheEntry.ofText? (CacheEntry.mk hash []).toJson.indented = some ⟨hash, []⟩) :
    Builder.StaysInside (marking mark) hash := by
  intro t base path l ht hfind _ hvacant
  obtain ⟨m, hl, hm⟩ := Option.bind_eq_some_iff.1 hfind
  have hml : m = l := by
    obtain ⟨e, -, he⟩ := Option.map_eq_some_iff.1 hm
    exact congrArg Prod.fst he
  subst hml
  have hnone := hvacant ["MARK"] (by simp)
  have hon : on (marking mark base path) t =
      (.ok (some []), t.put (m ++ ["MARK"]) (.text mark)) := by
    simp only [marking, on_bind, on_get, hl]
    rfl
  rw [hon]
  refine ⟨ht.put hnone (by simp), rfl, fun k hk => ?_, by simp, fun d hd => ?_⟩
  · rw [get?_put ht hnone (by simp), if_neg (hk _ (by simp))]
  · cases hd
    exact hsurvives

/-- A name beside the root of a cache is a fresh directory if nothing has the name. -/
theorem freshTarget_of_free {target : String} (ht : files.WellFormed) (hroot : Plain root)
    (htarget : Plain target) (hne : root ≠ target)
    (hfree : ∀ l e, (l, e) ∈ files.entries → l.head? ≠ some target)
    (hstores : ∀ l s, (l, .store s) ∉ files.entries) :
    FreshTarget files [] root target [root] := by
  have horigin : ∀ name, Plain name → files.origin? [] name = some ([], [name]) := by
    intro name hname
    have hjoin : Path.join "" name = name := by
      rw [hname.join_eq]
      simp
    have hslash := startsWith_join_eq_false (a := "") hname (by simp)
    have hparts := hname.partsOf_join ""
    rw [hjoin] at hslash hparts
    rw [origin?_relative ht.mount_absolute hslash, hparts]
    rfl
  have hway : ∀ name, Plain name → files.way [] name = [[name]] := by
    intro name hname
    simp [way, horigin name hname, passed, hname.go_eq]
  have hlead : ∀ into, files.lead? [] target = some into → into = [target] := by
    intro into hinto
    simpa [lead?, horigin target htarget, htarget.go_eq, eq_comm] using hinto
  have hout : ∀ l, files.OutsideStores l := fun l k s _ hs =>
    hstores k s (mem_entries_of_own? ((own?_eq_store_iff ht.root).2 hs))
  refine ⟨fun k hk => ?_, fun into hinto => ?_, fun into hinto w hw => ?_, fun into _ => hout into,
    fun into hinto k hk w hw => ?_⟩
  · rw [hway target htarget, List.mem_singleton] at hk
    simp [hk, hne]
  · simp [hlead into hinto, hne]
  · rw [hlead into hinto, ← own?_eq_get? ht (by simp) (hout _)]
    exact own?_eq_none.2 fun e hmem => hfree _ e hmem rfl
  · rw [hway root hroot, hway target htarget] at hk
    rw [hlead into hinto]
    simp only [List.mem_cons, List.not_mem_nil, or_false, List.cons_append, List.nil_append] at hk
    rcases hk with rfl | rfl | rfl <;> simp [hw, hne]

/-- Files of which none is there yet. -/
def noFiles : FileTree := FileTree.new "/work"

theorem emptyRoot_noFiles : EmptyRoot noFiles [] "cache" ["cache"] where
  wellFormed := wellFormed_work
  made := by
    have horigin : noFiles.origin? [] "cache" = some ([], ["cache"]) := by decide +kernel
    have hon : on (createDirectories [] ["cache"]) noFiles =
        on (createDirectories ["cache"] []) (noFiles.put ["cache"] .directory) :=
      on_createDirectories_name (by decide) rfl rfl
    refine ⟨_, (on_createDirectory horigin (by decide)).trans hon, ?_⟩
    rfl
  vacant w hw := rfl
  outside k s hk h := by
    cases k with
    | nil => cases h
    | cons part parts => cases h
  way := by
    have hway : noFiles.way [] "cache" = [["cache"]] := by decide +kernel
    simp [hway]

/-- A name is built from one hash, and then from another one. -/
def firstCall : Call := ⟨"demo", "h1", marking "one", "first"⟩

@[inherit_doc firstCall]
def secondCall : Call := ⟨"demo", "h2", marking "two", "second"⟩

def firstJournal : Journal := Journal.after ⟨CacheSession.start noFiles [] "cache", []⟩ firstCall

theorem survives_of_map {hash : String} (h : (CacheEntry.ofText?
    (CacheEntry.mk hash []).toJson.indented).map (fun e => (e.hash, e.definition.isEmpty)) =
      some (hash, true)) :
    CacheEntry.ofText? (CacheEntry.mk hash []).toJson.indented = some ⟨hash, []⟩ := by
  obtain ⟨⟨hash', d⟩, he, heq⟩ := Option.map_eq_some_iff.1 h
  simp only [Prod.mk.injEq, List.isEmpty_iff] at heq
  obtain ⟨rfl, rfl⟩ := heq
  exact he

theorem firstCall_proper :
    firstCall.Proper (CacheSession.start noFiles [] "cache") ["cache"] where
  name := by decide
  build := marking_staysInside (survives_of_map (by decide +kernel))
  target := freshTarget_of_free emptyRoot_noFiles.wellFormed (by decide) (by decide) (by decide)
    (by simp [CacheSession.start, noFiles, FileTree.new])
    (by simp [CacheSession.start, noFiles, FileTree.new])

def isStore : Entry → Bool
  | .store _ => true
  | _ => false

theorem freshTarget_of_all {target : String} (ht : files.WellFormed) (hroot : Plain root)
    (htarget : Plain target) (hne : root ≠ target)
    (hfree : (files.entries.all fun entry => entry.1.head? ≠ some target) = true)
    (hstores : (files.entries.all fun entry => !isStore entry.2) = true) :
    FreshTarget files [] root target [root] := by
  rw [List.all_eq_true] at hfree hstores
  refine freshTarget_of_free ht hroot htarget hne (fun l e hmem => ?_) fun l s hmem => ?_
  · exact of_decide_eq_true (hfree (l, e) hmem)
  · simpa [isStore] using hstores (l, .store s) hmem

theorem firstJournal_reachable : firstJournal.Reachable noFiles [] "cache" ["cache"] :=
  .call .start firstCall_proper

theorem secondCall_proper : secondCall.Proper firstJournal.session ["cache"] where
  name := by decide
  build := marking_staysInside (survives_of_map (by decide +kernel))
  target := by
    obtain ⟨start, ps, ha, hg⟩ := emptyRoot_noFiles.anchor
    have h := firstJournal_reachable.sound ha hg emptyRoot_noFiles
    rw [h.base_eq, h.root_eq]
    exact freshTarget_of_all h.ground.wellFormed (by decide) (by decide) (by decide)
      (by decide +kernel) (by decide +kernel)

/-- The second call builds anew and copies what it built. -/
theorem run_second : firstJournal.Reachable noFiles [] "cache" ["cache"] ∧
    secondCall.Proper firstJournal.session ["cache"] ∧
    (secondCall.run firstJournal.session).2.cache.builds ≠ firstJournal.session.cache.builds ∧
    (secondCall.run firstJournal.session).1 = .ok true ∧ ∃ a d into,
      (firstJournal.after secondCall).last? "demo" = some a ∧ a.hash = "h2" ∧
      a.outcome = .ok (some d) ∧ (secondCall.run firstJournal.session).2.files.locate?
        firstJournal.session.base "second" = some into ∧ ∀ w, w ≠ [] →
          (secondCall.run firstJournal.session).2.files.get? (into ++ w) =
            a.files.get? (["cache"] ++ ["demo", repositoryName] ++ w) := by
  have h := run_of_reachable emptyRoot_noFiles firstJournal_reachable secondCall_proper
  have hbuilds : (secondCall.run firstJournal.session).2.cache.builds ≠
      firstJournal.session.cache.builds := by decide +kernel
  have hok : (secondCall.run firstJournal.session).1 = .ok true :=
    Except.toOption_eq_some.1 (by decide +kernel)
  exact ⟨firstJournal_reachable, secondCall_proper, hbuilds, hok, h.2.2.1 hok⟩

end ReleaseHistory.CacheSession
