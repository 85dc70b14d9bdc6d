import Mathlib.Data.List.Forall2
import ReleaseHistory.Proofs.Definition.Progress

/-!
# What a check reads of an action

The wording of commits, the settings other than the release policy, and what changelogs are written
have no part in a check, and times have a part only as the last entry. So two definitions that are
alike but for these run through a check side by side, and what the check has seen of them differs in
the last entry alone. If one is accepted, then the other is as soon as its times are in order.

Of an engine a check asks no more than what the patterns of the settings say to the branches of the
definition: engines that agree there accept the same.
-/

namespace ReleaseHistory.Definition

/-- Two actions that a check tells apart by nothing but their times. -/
inductive Alike : Action → Action → Prop
  | configure {b c : Configuration} (h : b.release = c.release) :
    Alike (.configure b) (.configure c)
  | checkout (c : Checkout) : Alike (.checkout c) (.checkout c)
  | merge {m n : Merge} (branch : m.branch = n.branch) (forward : m.fastForward = n.fastForward)
    (commit : m.commit.isSome = n.commit.isSome) : Alike (.merge m) (.merge n)
  | commits {bs cs : List Commit} (h : bs.length = cs.length) : Alike (.commits bs) (.commits cs)
  | release (version s t : String) (first : List Action) :
    Alike (.release version s first) (.release version t first)
  | changelogs (u v : ChangelogUpdate) : Alike (.changelogs u) (.changelogs v)

namespace Progress

variable {p q : Progress}

/-- What a check has seen, but with another last entry. -/
def seenAt (p : Progress) (last : Option Time.Timestamp) : Progress := { p with lastEntry := last }

theorem addBranch_seenAt (name : String) (last : Option Time.Timestamp) :
    (p.seenAt last).addBranch name = (p.addBranch name).seenAt last := by
  unfold addBranch seenAt
  simp only
  split <;> rfl

theorem seenAt_of_addEntries {cs : List Commit} (h : p.addEntries cs = .ok q) :
    q = p.seenAt q.lastEntry := by
  induction cs generalizing p with
  | nil =>
    obtain rfl := Except.ok.inj h
    rfl
  | cons c cs ih =>
    obtain ⟨r, hr, hq⟩ := Except.bind_eq_ok.1 h
    obtain ⟨t, -, -, rfl⟩ := addEntry_eq_ok.1 hr
    have hseen := ih hq
    exact hseen

variable {times : List String} {stamps all : List Time.Timestamp}

theorem eq_of_quiet {a : Action} (hstamps : Stamped times stamps)
    (hall : Stamped (times ++ actionTimes a) all) (ha : actionTimes a = []) : all = stamps := by
  rw [ha, List.append_nil] at hall
  exact hall.unique hstamps

theorem checkout_seenAt {c : Checkout} {last : Option Time.Timestamp} (h : p.checkout c = .ok q) :
    (p.seenAt last).checkout c = .ok (q.seenAt last) := by
  cases c with
  | existing branch =>
    obtain ⟨hb, rfl⟩ := checkout_existing_eq_ok.1 h
    exact checkout_existing_eq_ok.2 ⟨hb, rfl⟩
  | create name start =>
    obtain ⟨hn, hb, rfl⟩ := checkout_create_eq_ok.1 h
    refine checkout_create_eq_ok.2 ⟨hn, hb, ?_⟩
    rw [addBranch_seenAt]
    rfl

theorem merge_seenAt {m n : Merge} (h : p.merge m = .ok q) (hbranch : m.branch = n.branch)
    (hforward : m.fastForward = n.fastForward) (hcommit : m.commit.isSome = n.commit.isSome)
    (hstamps : Stamped times stamps) (hall : Stamped (times ++ actionTimes (.merge n)) all) :
    (p.seenAt stamps.getLast?).merge n = .ok (q.seenAt all.getLast?) := by
  obtain ⟨hb, hc, hne, hcases⟩ := merge_eq_ok.1 h
  rw [hbranch] at hb hne
  refine merge_eq_ok.2 ⟨hb, hc, hne, ?_⟩
  rcases hcases with ⟨hm, hnone, rfl⟩ | ⟨c, hm, hsome, hentry⟩
  · rw [hnone, Option.isSome_none] at hcommit
    have hn : n.commit = none :=
      Option.isNone_iff_eq_none.1 (Option.isSome_eq_false_iff.1 hcommit.symm)
    rw [eq_of_quiet hstamps hall (by simp [actionTimes, hn])]
    exact Or.inl ⟨hforward ▸ hm, hn, rfl⟩
  · rw [hsome, Option.isSome_some] at hcommit
    obtain ⟨d, hn⟩ := Option.isSome_iff_exists.1 hcommit.symm
    rw [show actionTimes (.merge n) = [d.datetime] by simp [actionTimes, hn]] at hall
    obtain ⟨t, -, -, rfl⟩ := addEntry_eq_ok.1 hentry
    exact Or.inr ⟨d, hforward ▸ hm, hn, (addEntry_iff_stamped hstamps rfl).2 ⟨all, hall, rfl⟩⟩

theorem commits_seenAt {bs cs : List Commit} (h : p.commits bs = .ok q)
    (hlength : bs.length = cs.length) (hstamps : Stamped times stamps)
    (hall : Stamped (times ++ actionTimes (.commits cs)) all) :
    (p.seenAt stamps.getLast?).commits cs = .ok (q.seenAt all.getLast?) := by
  obtain ⟨r, hentries, rfl⟩ := commits_eq_ok.1 h
  refine commits_eq_ok.2 ⟨_, (addEntries_iff_stamped hstamps rfl).2 ⟨all, hall, rfl⟩, ?_⟩
  have hempty : cs = [] ↔ bs = [] := by
    rw [← List.length_eq_zero_iff, ← hlength, List.length_eq_zero_iff]
  rw [seenAt_of_addEntries hentries]
  simp only [hempty]
  split
  · rfl
  · rw [addBranch_seenAt]
    exact (addBranch_seenAt ..).symm

variable [Pattern.Engine]

theorem release_seenAt {version s t : String} {first : List Action}
    (h : p.release version s first = .ok q) (hstamps : Stamped times stamps)
    (hall : Stamped (times ++ [t]) all) :
    (p.seenAt stamps.getLast?).release version t first = .ok (q.seenAt all.getLast?) := by
  obtain ⟨hb, r, hentry, v, channel, hv, hchannel, hfirst, hpolicy, hadd⟩ := release_eq_ok.1 h
  obtain ⟨u, -, -, rfl⟩ := addEntry_eq_ok.1 hentry
  obtain ⟨hlast, rfl⟩ := addRelease_eq_ok.1 hadd
  exact release_eq_ok.2 ⟨hb, _, (addEntry_iff_stamped hstamps rfl).2 ⟨all, hall, rfl⟩, v, channel,
    hv, hchannel, hfirst, hpolicy, addRelease_eq_ok.2 ⟨hlast, rfl⟩⟩

/-- A step that succeeds on one action succeeds on one like it, if its times keep the order. -/
theorem step_seenAt {a b : Action} (hab : Alike a b) (h : p.step a = .ok q)
    (hstamps : Stamped times stamps) (hall : Stamped (times ++ actionTimes b) all) :
    (p.seenAt stamps.getLast?).step b = .ok (q.seenAt all.getLast?) := by
  cases hab with
  | configure hrelease =>
    obtain ⟨hnone, hhistory, rfl⟩ := configure_eq_ok.1 h
    rw [eq_of_quiet hstamps hall rfl]
    exact configure_eq_ok.2 ⟨hnone, hhistory, by rw [← hrelease]; rfl⟩
  | checkout c =>
    rw [eq_of_quiet hstamps hall rfl]
    exact checkout_seenAt h
  | merge hbranch hforward hcommit =>
    exact merge_seenAt (p := { p with hasHistory := true }) h hbranch hforward hcommit hstamps hall
  | commits hlength =>
    exact commits_seenAt (p := { p with hasHistory := true }) h hlength hstamps hall
  | release version s t first =>
    exact release_seenAt (p := { p with hasHistory := true }) h hstamps hall
  | changelogs u v =>
    obtain rfl := Except.ok.inj h
    rw [eq_of_quiet hstamps hall rfl]
    rfl

end Progress

/-! ### Side by side -/

section SideBySide

variable [Pattern.Engine]

theorem checkFrom_seenAt {p q : Progress} {d e : Definition} {i j : Nat} {times : List String}
    {stamps all : List Time.Timestamp} (hde : List.Forall₂ Alike d e)
    (h : checkFrom p i d = .ok q) (hstamps : Stamped times stamps)
    (hall : Stamped (times ++ e.times) all) :
    checkFrom (p.seenAt stamps.getLast?) j e = .ok (q.seenAt all.getLast?) := by
  induction hde generalizing p i j times stamps with
  | nil =>
    obtain rfl := Except.ok.inj h
    rw [Definition.times, List.flatMap_nil, List.append_nil] at hall
    rw [hall.unique hstamps]
    rfl
  | @cons a b d e hab _ ih =>
    unfold checkFrom at h ⊢
    cases hstep : p.step a with
    | error cause => simp [hstep] at h
    | ok r =>
      rw [hstep] at h
      rw [times_cons, ← List.append_assoc] at hall
      obtain ⟨_, _, -, hone⟩ := hall.left
      rw [Progress.step_seenAt hab hstep hstamps hone]
      exact ih h hone hall

/-- Of two definitions that are alike, one being accepted, the other is accepted exactly if its
times are in order. -/
theorem check_iff_chronological {d e : Definition} (hde : List.Forall₂ Alike d e)
    (hd : d.check = .ok ()) : e.check = .ok () ↔ Chronological e.times := by
  constructor
  · intro he
    obtain ⟨q, hq⟩ := check_eq_ok.1 he
    exact (tracks_of_checkFrom hq).1.chronological
  · rintro ⟨all, hall⟩
    obtain ⟨q, hq⟩ := check_eq_ok.1 hd
    have hnone : Stamped [] [] := ⟨rfl, List.Pairwise.nil⟩
    have he : checkFrom (Progress.start.seenAt none) 0 e = .ok (q.seenAt all.getLast?) :=
      checkFrom_seenAt hde hq hnone hall
    exact check_eq_ok.2 ⟨_, he⟩

end SideBySide

/-! ### Engines -/

theorem currentBranch_mem_targets (before after : Definition) :
    before.currentBranch ∈ mainBranch :: (checkouts (before ++ after)).map Checkout.target := by
  rw [checkouts, List.filterMap_append, List.map_append]
  cases hlast : (before.checkouts.map Checkout.target).getLast? with
  | none =>
    rw [currentBranch, hlast]
    exact List.mem_cons_self
  | some target =>
    rw [currentBranch, hlast]
    exact List.mem_cons_of_mem _ (List.mem_append_left _ (List.mem_of_getLast? hlast))

/-- Two engines say the same of the patterns in the settings to the branches that are checked out. -/
def Agree (E F : Pattern.Engine) (d : Definition) : Prop :=
  ∀ c, .configure c ∈ d → ∀ group ∈ c.release.groups,
    ∀ branch ∈ mainBranch :: d.checkouts.map Checkout.target,
      @BranchPolicy.matches? E group.2 branch = @BranchPolicy.matches? F group.2 branch

theorem firstMatch_of_agree {E F : Pattern.Engine} {branch : String}
    {groups : List (String × BranchPolicy)} {group : String × BranchPolicy}
    (h : ∀ g ∈ groups, @BranchPolicy.matches? E g.2 branch = @BranchPolicy.matches? F g.2 branch)
    (hmatch : @ReleasePolicy.FirstMatch E branch groups group) :
    @ReleasePolicy.FirstMatch F branch groups group := by
  obtain ⟨before, after, rfl, hbefore, hgroup⟩ := hmatch
  refine ⟨before, after, rfl, fun g hg => ?_, ?_⟩
  · rw [← h g (List.mem_append_left _ hg)]
    exact hbefore g hg
  · rw [← h group (List.mem_append_right _ List.mem_cons_self)]
    exact hgroup

theorem check_of_agree {E F : Pattern.Engine} {d : Definition} (h : Agree E F d)
    (hcheck : @check E d = .ok ()) : @check F d = .ok () := by
  obtain ⟨honce, hconfigured, hbranches, hmerges, htimes, hreleases, hascending⟩ :=
    (@check_eq_ok_iff_valid E d).1 hcheck
  refine (@check_eq_ok_iff_valid F d).2
    ⟨honce, hconfigured, hbranches, hmerges, htimes, ?_, hascending⟩
  intro before a after hsplit
  have hfits := hreleases before a after hsplit
  cases a with
  | release version time first =>
    obtain ⟨v, channel, hv, hchannel, hfirst, hpolicy⟩ := hfits
    refine ⟨v, channel, hv, hchannel, hfirst, fun c hc => ?_⟩
    obtain ⟨hzero, group, hgroup, hgroupChannel⟩ := hpolicy c hc
    have hmem : .configure c ∈ d := hsplit ▸ List.mem_append_left _ hc
    have hbranch := hsplit ▸ currentBranch_mem_targets before (.release version time first :: after)
    exact ⟨hzero, group, firstMatch_of_agree (fun g hg => h c hmem g hg _ hbranch) hgroup,
      hgroupChannel⟩
  | _ => trivial

end ReleaseHistory.Definition
