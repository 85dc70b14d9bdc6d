import ReleaseHistory.Proofs.Definition.Validity

/-!
# What a check has seen, and what it accepts

After each action a check knows the branches, the branch that is checked out, the settings, the last
entry and the last release of every channel of the actions so far. One step keeps this knowledge
right and succeeds exactly if the definition stays valid with one more action; by induction on the
definition the check accepts exactly the valid ones.
-/

namespace ReleaseHistory.Definition

/-! ### Knowledge of the actions so far -/

/-- What a check has seen is right for a definition. -/
structure Progress.Tracks (p : Progress) (d : Definition) : Prop where
  policy : ∀ policy, p.policy = some policy ↔ ∃ c, .configure c ∈ d ∧ c.release = policy
  hasHistory : p.hasHistory = false ↔
    ∀ a ∈ d, (∃ c, a = .configure c) ∨ ∃ u, a = .changelogs u
  branches : ∀ branch, branch ∈ p.branches ↔ d.HasBranch branch
  current : p.current = d.currentBranch
  /-- Only the main branch can be checked out before it is there. -/
  born : p.current = mainBranch ∨ p.current ∈ p.branches
  lastEntry : ∃ stamps, Stamped d.times stamps ∧ p.lastEntry = stamps.getLast?
  released : ∀ channel, p.released.lookup channel = (d.releasedIn channel).getLast?

/-- One more action keeps a valid definition valid. -/
structure Fits [Pattern.Engine] (d : Definition) (a : Action) : Prop where
  configuredFirst : ∀ c, a = .configure c → ∀ b ∈ d, ∃ u, b = .changelogs u
  branches : BranchesFit d a
  mergeCommits : ∀ m, a = .merge m → (m.fastForward = true ↔ m.commit = none)
  chronological : Chronological (d.times ++ actionTimes a)
  releases : ReleaseFits d a
  ascending : ∀ channel,
    (releasedIn (d ++ [a]) channel).Pairwise fun v w => w.precedence v = .gt

theorem valid_concat [Pattern.Engine] {d : Definition} {a : Action} :
    Valid (d ++ [a]) ↔ d.Valid ∧ d.Fits a := by
  constructor
  · rintro ⟨honce, hfirst, hbranches, hmerges, htimes, hreleases, hascending⟩
    rw [each_concat] at hfirst hbranches hreleases
    rw [times_concat] at htimes
    rw [configurations_concat, List.length_append] at honce
    refine ⟨⟨by omega, hfirst.1, hbranches.1, fun m hm => ?_, htimes.left, hreleases.1, ?_⟩,
      ⟨hfirst.2, hbranches.2, fun m hm => ?_, htimes, hreleases.2, hascending⟩⟩
    · exact hmerges m (List.mem_append_left _ hm)
    · intro channel
      have h := hascending channel
      rw [releasedIn_concat] at h
      exact (List.pairwise_append.1 h).1
    · exact hmerges m (List.mem_append_right _ (by simp [hm]))
  · rintro ⟨hd, ha⟩
    refine ⟨?_, each_concat.2 ⟨hd.configuredFirst, ha.configuredFirst⟩,
      each_concat.2 ⟨hd.branches, ha.branches⟩, ?_, ?_,
      each_concat.2 ⟨hd.releases, ha.releases⟩, ha.ascending⟩
    · -- settings come after nothing but changelogs, so there were none before
      rw [configurations_concat]
      cases a with
      | configure c =>
        have hnone : d.configurations = [] := by
          refine List.eq_nil_iff_forall_not_mem.2 fun c' hc' => ?_
          obtain ⟨u, hu⟩ := ha.configuredFirst c rfl _ (mem_configurations.1 hc')
          cases hu
        rw [hnone]
        exact le_refl 1
      | _ => simpa [configurations] using hd.configuredOnce
    · intro m hm
      rcases List.mem_append.1 hm with hm | hm
      · exact hd.mergeCommits m hm
      · exact ha.mergeCommits m (List.mem_singleton.1 hm).symm
    · rw [times_concat]
      exact ha.chronological

/-! ### Nothing is seen before the first action -/

theorem valid_nil [Pattern.Engine] : Valid [] where
  configuredOnce := Nat.zero_le 1
  configuredFirst before a after h := by simp at h
  branches before a after h := by simp at h
  mergeCommits m hm := by simp at hm
  chronological := ⟨[], rfl, List.Pairwise.nil⟩
  releases before a after h := by simp at h
  ascending _ := List.Pairwise.nil

theorem not_hasBranch_nil {branch : String} : ¬HasBranch [] branch := by
  simp [HasBranch]

theorem Progress.tracks_start : Progress.start.Tracks [] where
  policy _ := by simp [start]
  hasHistory := by simp [start]
  branches _ := by simp [start, not_hasBranch_nil]
  current := rfl
  born := Or.inl rfl
  lastEntry := ⟨[], ⟨rfl, List.Pairwise.nil⟩, rfl⟩
  released _ := rfl

namespace Progress

variable {p q : Progress} {d : Definition}

/-! ### Entries -/

/-- An entry can be added exactly if the times stay in order, and then it is the last one. -/
theorem addEntry_iff_stamped {times : List String} {stamps : List Time.Timestamp} {time : String}
    (h : Stamped times stamps) (hlast : p.lastEntry = stamps.getLast?) :
    p.addEntry time = .ok q ↔ ∃ all, Stamped (times ++ [time]) all ∧
      q = { p with lastEntry := all.getLast? } := by
  simp only [addEntry_eq_ok, stamped_concat h, hlast]
  constructor
  · rintro ⟨t, ht, hbefore, rfl⟩
    exact ⟨_, ⟨t, ht, hbefore, rfl⟩, by simp⟩
  · rintro ⟨_, ⟨t, ht, hbefore, rfl⟩, rfl⟩
    exact ⟨t, ht, hbefore, by simp⟩

theorem addEntries_iff_stamped {times : List String} {stamps : List Time.Timestamp}
    {cs : List Commit} (h : Stamped times stamps) (hlast : p.lastEntry = stamps.getLast?) :
    p.addEntries cs = .ok q ↔ ∃ all, Stamped (times ++ cs.map (·.datetime)) all ∧
      q = { p with lastEntry := all.getLast? } := by
  induction cs generalizing p times stamps with
  | nil =>
    simp only [addEntries, List.map_nil, List.append_nil, Except.ok.injEq]
    constructor
    · rintro rfl
      exact ⟨stamps, h, by rw [← hlast]⟩
    · rintro ⟨all, hall, rfl⟩
      rw [hall.unique h, ← hlast]
  | cons c cs ih =>
    simp only [addEntries, Except.bind_eq_ok, addEntry_iff_stamped h hlast, List.map_cons]
    rw [List.append_cons times c.datetime (cs.map (·.datetime))]
    constructor
    · rintro ⟨r, ⟨ss, hss, rfl⟩, hr⟩
      obtain ⟨all, hall, rfl⟩ := (ih hss rfl).1 hr
      exact ⟨all, hall, rfl⟩
    · rintro ⟨all, hall, rfl⟩
      obtain ⟨ss, -, -, hss⟩ := hall.left
      exact ⟨_, ⟨ss, hss, rfl⟩, (ih hss rfl).2 ⟨all, hall, rfl⟩⟩

theorem Tracks.chronological_quiet {a : Action} (hp : p.Tracks d) (ha : actionTimes a = []) :
    Chronological (d.times ++ actionTimes a) := by
  obtain ⟨stamps, hstamps, -⟩ := hp.lastEntry
  rw [ha, List.append_nil]
  exact ⟨stamps, hstamps⟩

/-! ### Settings -/

theorem Tracks.configurable_iff (hp : p.Tracks d) :
    p.policy = none ∧ p.hasHistory = false ↔ ∀ a ∈ d, ∃ u, a = .changelogs u := by
  rw [hp.hasHistory]
  constructor
  · rintro ⟨hnone, h⟩ a ha
    rcases h a ha with ⟨c, rfl⟩ | hu
    · have := (hp.policy c.release).2 ⟨c, ha, rfl⟩
      rw [hnone] at this
      cases this
    · exact hu
  · intro h
    refine ⟨?_, fun a ha => Or.inr (h a ha)⟩
    refine Option.eq_none_iff_forall_not_mem.2 fun policy hpolicy => ?_
    obtain ⟨c, hc, -⟩ := (hp.policy policy).1 hpolicy
    obtain ⟨u, hu⟩ := h _ hc
    cases hu

/-! ### Releases -/

theorem releasedIn_release {version time : String} {first : List Action} {v : Version.Release}
    {channel : Option String} (hv : Version.Release.parse version = .ok v)
    (hchannel : v.channel = .ok channel) (other : Option String) :
    releasedIn [.release version time first] other = if other = channel then [v] else [] := by
  have hother : v.channel.toOption = some other ↔ other = channel := by
    rw [hchannel]
    simp [Except.toOption, eq_comm]
  by_cases h : other = channel
  · simp [releasedIn, versions, hv, h, hother.2 h]
  · simp [releasedIn, versions, hv, h, hother]

variable [Pattern.Engine]

/-- Precedence in every channel is kept exactly if the new release follows the last one of its
channel. -/
theorem Tracks.ascending_release (hp : p.Tracks d) (hd : d.Valid) {version time : String}
    {first : List Action} {v : Version.Release} {channel : Option String}
    (hv : Version.Release.parse version = .ok v) (hchannel : v.channel = .ok channel) :
    (∀ other, (releasedIn (d ++ [.release version time first]) other).Pairwise
        fun v w => w.precedence v = .gt) ↔
      ∀ previous ∈ p.released.lookup channel, v.precedence previous = .gt := by
  simp only [releasedIn_concat, releasedIn_release hv hchannel]
  constructor
  · intro h
    have hch := h channel
    rw [if_pos rfl, pairwise_concat] at hch
    rw [hp.released]
    exact hch.2
  · intro h other
    by_cases ho : other = channel
    · rw [if_pos ho, pairwise_concat]
      refine ⟨hd.ascending other, ?_⟩
      rw [ho, ← hp.released]
      exact h
    · rw [if_neg ho, List.append_nil]
      exact hd.ascending other

/-! ### Steps -/

theorem tracks_configure {c : Configuration} (hp : p.Tracks d)
    (h : p.step (.configure c) = .ok q) : q.Tracks (d ++ [.configure c]) := by
  obtain ⟨hpolicy, hhistory, hbranches, hcurrent, hborn, ⟨stamps, hstamps, hlast⟩, hreleased⟩ := hp
  obtain ⟨hnone, -, rfl⟩ := configure_eq_ok.1 h
  have hbefore : ∀ c', .configure c' ∉ d := by
    intro c' hc'
    have := (hpolicy c'.release).2 ⟨c', hc', rfl⟩
    rw [hnone] at this
    cases this
  refine ⟨?_, ?_, ?_, ?_, hborn, ⟨stamps, ?_, hlast⟩, ?_⟩
  · simp [hbefore]
  · simp [hhistory, or_imp, forall_and]
  · simp [hasBranch_concat, hbranches]
  · simp [currentBranch_concat, hcurrent]
  · simpa [times_concat, actionTimes] using hstamps
  · simp [hreleased, releasedIn, versions]

theorem tracks_changelogs {u : ChangelogUpdate} (hp : p.Tracks d)
    (h : p.step (.changelogs u) = .ok q) : q.Tracks (d ++ [.changelogs u]) := by
  obtain ⟨hpolicy, hhistory, hbranches, hcurrent, hborn, ⟨stamps, hstamps, hlast⟩, hreleased⟩ := hp
  obtain rfl := Except.ok.inj h
  refine ⟨?_, ?_, ?_, ?_, hborn, ⟨stamps, ?_, hlast⟩, ?_⟩
  · simp [hpolicy]
  · simp [hhistory, or_imp, forall_and]
  · simp [hasBranch_concat, hbranches]
  · simp [currentBranch_concat, hcurrent]
  · simpa [times_concat, actionTimes] using hstamps
  · simp [hreleased, releasedIn, versions]

theorem tracks_checkout {c : Checkout} (hp : p.Tracks d)
    (h : p.step (.checkout c) = .ok q) : q.Tracks (d ++ [.checkout c]) := by
  obtain ⟨hpolicy, hhistory, hbranches, hcurrent, hborn, ⟨stamps, hstamps, hlast⟩, hreleased⟩ := hp
  cases c with
  | existing branch =>
    obtain ⟨hb, rfl⟩ := checkout_existing_eq_ok.1 h
    refine ⟨?_, ?_, ?_, ?_, Or.inr hb, ⟨stamps, ?_, hlast⟩, ?_⟩
    · simp [hpolicy]
    · simp [or_imp, forall_and]
    · simp [hasBranch_concat, hbranches]
    · simp [currentBranch_concat, Checkout.target]
    · simpa [times_concat, actionTimes] using hstamps
    · simp [hreleased, releasedIn, versions]
  | create name start =>
    obtain ⟨hn, hb, rfl⟩ := checkout_create_eq_ok.1 h
    refine ⟨?_, ?_, ?_, ?_, Or.inr ?_, ⟨stamps, ?_, ?_⟩, ?_⟩
    · simp [hpolicy]
    · simp [or_imp, forall_and]
    · simp [hasBranch_concat, hbranches, eq_comm]
    · simp [currentBranch_concat, Checkout.target]
    · simp
    · simpa [times_concat, actionTimes] using hstamps
    · simpa using hlast
    · simp [hreleased, releasedIn, versions]

theorem tracks_merge {m : Merge} (hp : p.Tracks d)
    (h : p.step (.merge m) = .ok q) : q.Tracks (d ++ [.merge m]) := by
  obtain ⟨hpolicy, hhistory, hbranches, hcurrent, hborn, ⟨stamps, hstamps, hlast⟩, hreleased⟩ := hp
  obtain ⟨-, hb, -, hcases⟩ := merge_eq_ok.1 h
  have hentries : ∃ all, Stamped (times (d ++ [.merge m])) all ∧
      q = { p with hasHistory := true, lastEntry := all.getLast? } := by
    rcases hcases with ⟨-, hcommit, rfl⟩ | ⟨c, -, hcommit, hentry⟩
    · exact ⟨stamps, by simpa [times_concat, actionTimes, hcommit] using hstamps, by rw [← hlast]⟩
    · obtain ⟨all, hall, rfl⟩ := (addEntry_iff_stamped (p := { p with hasHistory := true })
        hstamps hlast).1 hentry
      exact ⟨all, by simpa [times_concat, actionTimes, hcommit] using hall, rfl⟩
  obtain ⟨all, hall, rfl⟩ := hentries
  refine ⟨?_, ?_, ?_, ?_, hborn, ⟨all, hall, rfl⟩, ?_⟩
  · simp [hpolicy]
  · simp [or_imp, forall_and]
  · simp [hasBranch_concat, hbranches]
  · simp [currentBranch_concat, hcurrent]
  · simp [hreleased, releasedIn, versions]

theorem tracks_commits {cs : List Commit} (hp : p.Tracks d)
    (h : p.step (.commits cs) = .ok q) : q.Tracks (d ++ [.commits cs]) := by
  obtain ⟨hpolicy, hhistory, hbranches, hcurrent, hborn, ⟨stamps, hstamps, hlast⟩, hreleased⟩ := hp
  obtain ⟨r, hentries, rfl⟩ := commits_eq_ok.1 h
  obtain ⟨all, hall, rfl⟩ := (addEntries_iff_stamped (p := { p with hasHistory := true })
    hstamps hlast).1 hentries
  rw [show cs.map (·.datetime) = actionTimes (.commits cs) from rfl, ← times_concat] at hall
  cases cs with
  | nil =>
    refine ⟨?_, ?_, ?_, ?_, hborn, ⟨all, hall, rfl⟩, ?_⟩
    · simp [hpolicy]
    · simp [or_imp, forall_and]
    · simp [hasBranch_concat, hbranches]
    · simp [currentBranch_concat, hcurrent]
    · simp [hreleased, releasedIn, versions]
  | cons c cs =>
    refine ⟨?_, ?_, ?_, ?_, Or.inr ?_, ⟨all, hall, ?_⟩, ?_⟩
    · simp [hpolicy]
    · simp [or_imp, forall_and]
    · -- the branch that is checked out is there already, unless it is the main branch
      intro branch
      have hmem : branch = p.current → p.current ≠ mainBranch → d.HasBranch branch := by
        rintro rfl hne
        exact (hbranches _).1 (hborn.resolve_left hne)
      simp only [List.cons_ne_nil, if_false, mem_branches_addBranch, hbranches, hasBranch_concat]
      rw [← hcurrent]
      grind
    · simp [currentBranch_concat, hcurrent]
    · simp
    · simp
    · simp [hreleased, releasedIn, versions]

theorem tracks_release {version time : String} {first : List Action} (hp : p.Tracks d)
    (h : p.step (.release version time first) = .ok q) : q.Tracks (d ++ [.release version time first]) := by
  obtain ⟨hpolicy, hhistory, hbranches, hcurrent, hborn, ⟨stamps, hstamps, hlast⟩, hreleased⟩ := hp
  obtain ⟨hb, r, hentry, v, channel, hv, hchannel, -, -, hadd⟩ := release_eq_ok.1 h
  obtain ⟨all, hall, rfl⟩ := (addEntry_iff_stamped (p := { p with hasHistory := true })
    hstamps hlast).1 hentry
  obtain ⟨-, rfl⟩ := addRelease_eq_ok.1 hadd
  refine ⟨?_, ?_, ?_, ?_, Or.inr hb, ⟨all, ?_, rfl⟩, ?_⟩
  · simp [hpolicy]
  · simp [or_imp, forall_and]
  · simp [hasBranch_concat, hbranches]
  · simp [currentBranch_concat, hcurrent]
  · rw [times_concat]
    exact hall
  · intro other
    rw [releasedIn_concat, releasedIn_release hv hchannel, List.lookup_cons]
    by_cases ho : other = channel
    · simp [ho]
    · simp [ho, hreleased, beq_eq_false_iff_ne.2 ho]

theorem Tracks.step {a : Action} (hp : p.Tracks d) (h : p.step a = .ok q) :
    q.Tracks (d ++ [a]) := by
  cases a with
  | configure c => exact tracks_configure hp h
  | changelogs u => exact tracks_changelogs hp h
  | checkout c => exact tracks_checkout hp h
  | merge m => exact tracks_merge hp h
  | commits cs => exact tracks_commits hp h
  | release version time first => exact tracks_release hp h

/-! ### Which steps succeed -/

theorem ascending_quiet {a : Action} (hd : d.Valid)
    (ha : ∀ channel, releasedIn [a] channel = []) (channel : Option String) :
    (releasedIn (d ++ [a]) channel).Pairwise fun v w => w.precedence v = .gt := by
  rw [releasedIn_concat, ha, List.append_nil]
  exact hd.ascending channel

theorem exists_step_configure {c : Configuration} (hp : p.Tracks d) (hd : d.Valid) :
    (∃ q, p.step (.configure c) = .ok q) ↔ d.Fits (.configure c) := by
  constructor
  · rintro ⟨q, h⟩
    obtain ⟨hnone, hhistory, -⟩ := configure_eq_ok.1 h
    refine ⟨?_, trivial, by simp, hp.chronological_quiet rfl, trivial, ascending_quiet hd fun _ => rfl⟩
    rintro - -
    exact hp.configurable_iff.1 ⟨hnone, hhistory⟩
  · intro h
    obtain ⟨hnone, hhistory⟩ := hp.configurable_iff.2 (h.configuredFirst c rfl)
    exact ⟨_, configure_eq_ok.2 ⟨hnone, hhistory, rfl⟩⟩

theorem exists_step_changelogs {u : ChangelogUpdate} (hp : p.Tracks d) (hd : d.Valid) :
    (∃ q, p.step (.changelogs u) = .ok q) ↔ d.Fits (.changelogs u) := by
  constructor
  · rintro -
    exact ⟨by simp, trivial, by simp, hp.chronological_quiet rfl, trivial, ascending_quiet hd fun _ => rfl⟩
  · rintro -
    exact ⟨p, rfl⟩

theorem exists_step_checkout {c : Checkout} (hp : p.Tracks d) (hd : d.Valid) :
    (∃ q, p.step (.checkout c) = .ok q) ↔ d.Fits (.checkout c) := by
  cases c with
  | existing branch =>
    constructor
    · rintro ⟨q, h⟩
      obtain ⟨hb, -⟩ := checkout_existing_eq_ok.1 h
      exact ⟨by simp, (hp.branches branch).1 hb, by simp, hp.chronological_quiet rfl, trivial,
        ascending_quiet hd fun _ => rfl⟩
    · intro h
      exact ⟨_, checkout_existing_eq_ok.2 ⟨(hp.branches branch).2 h.branches, rfl⟩⟩
  | create name start =>
    constructor
    · rintro ⟨q, h⟩
      obtain ⟨hn, hb, -⟩ := checkout_create_eq_ok.1 h
      exact ⟨by simp, ⟨(hp.branches name).not.1 hn, (hp.branches start).1 hb⟩, by simp,
        hp.chronological_quiet rfl, trivial, ascending_quiet hd fun _ => rfl⟩
    · intro h
      exact ⟨_, checkout_create_eq_ok.2
        ⟨(hp.branches name).not.2 h.branches.1, (hp.branches start).2 h.branches.2, rfl⟩⟩

theorem exists_step_merge {m : Merge} (hp : p.Tracks d) (hd : d.Valid) :
    (∃ q, p.step (.merge m) = .ok q) ↔ d.Fits (.merge m) := by
  obtain ⟨stamps, hstamps, hlast⟩ := hp.lastEntry
  obtain ⟨branch, fastForward, commit⟩ := m
  constructor
  · rintro ⟨q, h⟩
    obtain ⟨hb, hc, hne, hcases⟩ := merge_eq_ok.1 h
    have hfit : BranchesFit d (.merge ⟨branch, fastForward, commit⟩) :=
      ⟨(hp.branches _).1 hb, hp.current ▸ (hp.branches _).1 hc, hp.current ▸ hne⟩
    rcases hcases with ⟨hforward, hcommit, -⟩ | ⟨c, hforward, hcommit, hentry⟩
    · exact ⟨by simp, hfit, by simp_all, hp.chronological_quiet (by simp_all [actionTimes]), trivial,
        ascending_quiet hd fun _ => rfl⟩
    · obtain ⟨all, hall, -⟩ := (addEntry_iff_stamped (p := { p with hasHistory := true })
        hstamps hlast).1 hentry
      refine ⟨by simp, hfit, by simp_all, ⟨all, ?_⟩, trivial, ascending_quiet hd fun _ => rfl⟩
      simpa [actionTimes, show commit = some c from hcommit] using hall
  · intro h
    obtain ⟨hb, hc, hne⟩ := h.branches
    have hrule := h.mergeCommits _ rfl
    have htimes := h.chronological
    rw [← hp.current] at hc hne
    cases commit with
    | none =>
      exact ⟨_, merge_eq_ok.2 ⟨(hp.branches _).2 hb, (hp.branches _).2 hc, hne,
        Or.inl ⟨hrule.2 rfl, rfl, rfl⟩⟩⟩
    | some c =>
      obtain ⟨all, hall⟩ := htimes
      have hforward : fastForward = false := by simpa using hrule
      have hentry := (addEntry_iff_stamped (p := { p with hasHistory := true })
        hstamps hlast).2 ⟨all, hall, rfl⟩
      exact ⟨_, merge_eq_ok.2 ⟨(hp.branches _).2 hb, (hp.branches _).2 hc, hne,
        Or.inr ⟨c, hforward, rfl, hentry⟩⟩⟩

theorem exists_step_commits {cs : List Commit} (hp : p.Tracks d) (hd : d.Valid) :
    (∃ q, p.step (.commits cs) = .ok q) ↔ d.Fits (.commits cs) := by
  obtain ⟨stamps, hstamps, hlast⟩ := hp.lastEntry
  constructor
  · rintro ⟨q, h⟩
    obtain ⟨r, hentries, -⟩ := commits_eq_ok.1 h
    obtain ⟨all, hall, -⟩ := (addEntries_iff_stamped (p := { p with hasHistory := true })
      hstamps hlast).1 hentries
    exact ⟨by simp, trivial, by simp, ⟨all, hall⟩, trivial, ascending_quiet hd fun _ => rfl⟩
  · intro h
    obtain ⟨all, hall⟩ := h.chronological
    have hentries := (addEntries_iff_stamped (p := { p with hasHistory := true })
      hstamps hlast).2 ⟨all, hall, rfl⟩
    exact ⟨_, commits_eq_ok.2 ⟨_, hentries, rfl⟩⟩

theorem exists_step_release {version time : String} {first : List Action} (hp : p.Tracks d) (hd : d.Valid) :
    (∃ q, p.step (.release version time first) = .ok q) ↔ d.Fits (.release version time first) := by
  obtain ⟨stamps, hstamps, hlast⟩ := hp.lastEntry
  constructor
  · rintro ⟨q, h⟩
    obtain ⟨hb, r, hentry, v, channel, hv, hchannel, hfirst, hpolicy, hadd⟩ := release_eq_ok.1 h
    obtain ⟨all, hall, rfl⟩ := (addEntry_iff_stamped (p := { p with hasHistory := true })
      hstamps hlast).1 hentry
    rw [checkPolicy_eq_ok] at hpolicy
    refine ⟨by simp, ?_, by simp, ⟨all, hall⟩, ⟨v, channel, hv, hchannel, hfirst, ?_⟩, ?_⟩
    · show d.HasBranch d.currentBranch
      rw [← hp.current]
      exact (hp.branches _).1 hb
    · intro c hc
      rw [← hp.current]
      exact hpolicy c.release ((hp.policy _).2 ⟨c, hc, rfl⟩)
    · exact (hp.ascending_release hd hv hchannel).2 (addRelease_eq_ok.1 hadd).1
  · intro h
    obtain ⟨v, channel, hv, hchannel, hfirst, hpolicy⟩ := h.releases
    obtain ⟨all, hall⟩ := h.chronological
    have hb : d.HasBranch d.currentBranch := h.branches
    have hentry := (addEntry_iff_stamped (p := { p with hasHistory := true })
      hstamps hlast).2 ⟨all, hall, rfl⟩
    have hadd := (hp.ascending_release hd hv hchannel).1 h.ascending
    refine ⟨_, release_eq_ok.2 ⟨?_, _, hentry, v, channel, hv, hchannel, hfirst, ?_,
      addRelease_eq_ok.2 ⟨hadd, rfl⟩⟩⟩
    · rw [← hp.current] at hb
      exact (hp.branches _).2 hb
    · rw [checkPolicy_eq_ok]
      intro policy hpol
      obtain ⟨c, hc, rfl⟩ := (hp.policy policy).1 hpol
      have := hpolicy c hc
      rw [← hp.current] at this
      exact this

theorem exists_step_iff_fits {a : Action} (hp : p.Tracks d) (hd : d.Valid) :
    (∃ q, p.step a = .ok q) ↔ d.Fits a := by
  cases a with
  | configure c => exact exists_step_configure hp hd
  | changelogs u => exact exists_step_changelogs hp hd
  | checkout c => exact exists_step_checkout hp hd
  | merge m => exact exists_step_merge hp hd
  | commits cs => exact exists_step_commits hp hd
  | release version time first => exact exists_step_release hp hd

end Progress

/-! ### Runs -/

variable [Pattern.Engine]

theorem Valid.left {d e : Definition} (h : Valid (d ++ e)) : d.Valid := by
  induction e using List.reverseRecOn with
  | nil => simpa using h
  | append_singleton e a ih =>
    rw [← List.append_assoc] at h
    exact ih (valid_concat.1 h).1

theorem Fits.version_not_mem {d : Definition} {version time : String} {first : List Action}
    (h : d.Fits (.release version time first)) : version ∉ d.versions := by
  intro hmem
  obtain ⟨v, channel, hv, hchannel, -, -⟩ := h.releases
  have hin : v ∈ d.releasedIn channel :=
    List.mem_filterMap.2 ⟨version, hmem, by simp [hv, hchannel, Except.toOption]⟩
  have hascending := h.ascending channel
  rw [releasedIn_concat, Progress.releasedIn_release hv hchannel, if_pos rfl,
    List.pairwise_append] at hascending
  have := hascending.2.2 v hin v (List.mem_singleton.2 rfl)
  exact Version.Release.ne_of_precedence_eq_gt this rfl

theorem checkFrom_concat {p q : Progress} {index : Nat} {d : Definition} {a : Action} :
    checkFrom p index (d ++ [a]) = .ok q ↔
      ∃ r, checkFrom p index d = .ok r ∧ r.step a = .ok q := by
  induction d generalizing p index with
  | nil =>
    simp only [List.nil_append, checkFrom, Except.ok.injEq, exists_eq_left']
    cases p.step a <;> simp
  | cons b d ih =>
    simp only [List.cons_append, checkFrom]
    cases p.step b with
    | error cause => simp
    | ok r => exact ih

/-- After the check of a definition, what it has seen is right and the definition is valid. -/
theorem tracks_of_checkFrom {p : Progress} {index : Nat} {d : Definition}
    (h : checkFrom .start index d = .ok p) : d.Valid ∧ p.Tracks d := by
  -- what has been seen is about all actions so far, so the last one is taken off
  induction d using List.reverseRecOn generalizing p with
  | nil =>
    obtain rfl := Except.ok.inj h
    exact ⟨valid_nil, Progress.tracks_start⟩
  | append_singleton d a ih =>
    obtain ⟨r, hr, hstep⟩ := checkFrom_concat.1 h
    obtain ⟨hd, hp⟩ := ih hr
    have hfits := (Progress.exists_step_iff_fits hp hd).1 ⟨p, hstep⟩
    exact ⟨valid_concat.2 ⟨hd, hfits⟩, hp.step hstep⟩

theorem exists_checkFrom_of_valid {d : Definition} (index : Nat) (h : d.Valid) :
    ∃ p, checkFrom .start index d = .ok p := by
  induction d using List.reverseRecOn with
  | nil => exact ⟨.start, rfl⟩
  | append_singleton d a ih =>
    obtain ⟨hd, hfits⟩ := valid_concat.1 h
    obtain ⟨r, hr⟩ := ih hd
    obtain ⟨q, hq⟩ := (Progress.exists_step_iff_fits (tracks_of_checkFrom hr).2 hd).2 hfits
    exact ⟨q, checkFrom_concat.2 ⟨r, hr, hq⟩⟩

theorem Valid.current_born {d : Definition} (h : d.Valid) :
    d.currentBranch = mainBranch ∨ d.HasBranch d.currentBranch := by
  obtain ⟨p, hp⟩ := exists_checkFrom_of_valid 0 h
  have htracks := (tracks_of_checkFrom hp).2
  rw [← htracks.current, ← htracks.branches]
  exact htracks.born

theorem check_eq_ok {d : Definition} : d.check = .ok () ↔ ∃ p, checkFrom .start 0 d = .ok p := by
  unfold check
  cases checkFrom .start 0 d <;> simp [Except.map]

/-- The check accepts a definition exactly if it is valid. -/
theorem check_eq_ok_iff_valid (d : Definition) : d.check = .ok () ↔ d.Valid := by
  rw [check_eq_ok]
  constructor
  · rintro ⟨p, hp⟩
    exact (tracks_of_checkFrom hp).1
  · exact exists_checkFrom_of_valid 0

end ReleaseHistory.Definition
