import ReleaseHistory.Git.Revision
import ReleaseHistory.Proofs.Git.Merge
import ReleaseHistory.Proofs.Git.RefName

/-!
# What revisions lead to

Whatever a revision names, its files are some of those of a commit, so that what no path of a
history goes through is not met by following a revision either. The full name of a branch leads to
its tip.
-/

namespace ReleaseHistory.Git.Revision

open Snapshot (Without)

variable {s : Store} {target found : Target} {snapshot : Snapshot} {name : String}

/-- The files of a target are without a name, if it says what they are. -/
def Target.Avoids (name : String) : Target → Prop
  | .tree t => Without name t
  | _ => True

theorem Target.Avoids.snapshot? (hs : ∀ n, Without name (s.history.snapshot n))
    (h : target.Avoids name) (hsnapshot : target.snapshot? s = some snapshot) :
    Without name snapshot := by
  cases target with
  | commit n =>
    cases hsnapshot
    exact hs n
  | tag t =>
    cases hsnapshot
    exact hs t.target
  | tree t =>
    cases hsnapshot
    exact h
  | blob => cases hsnapshot

theorem avoids_atPath? {path : String} (hs : Without name snapshot)
    (h : atPath? snapshot path = some found) : found.Avoids name := by
  unfold atPath? at h
  dsimp only at h
  generalize (if path.endsWith "/" = true then (path.dropEnd 1).toString else path) = dir at h
  split_ifs at h
  · cases h
    exact hs
  · cases h
    intro entry hentry
    obtain ⟨⟨p, text⟩, hp, hrest⟩ := List.mem_filterMap.1 hentry
    obtain ⟨rest, hdrop, rfl⟩ := Option.map_eq_some_iff.1 hrest
    have hchars := Text.dropStart?_eq_some.1 hdrop
    have hparts : Text.splitOn '/' p = Text.splitOn '/' dir ++ Text.splitOn '/' (String.ofList rest) := by
      rw [String.toList_append, List.append_assoc] at hchars
      simp only [Text.splitOn, hchars, String.toList_ofList, ← List.map_append]
      exact congrArg _ (Text.splitAll_append '/' dir.toList rest)
    have hnot := hs _ hp
    rw [hparts] at hnot
    intro hmem
    exact hnot (List.mem_append_right _ hmem)
  · obtain ⟨text, -, rfl⟩ := Option.map_eq_some_iff.1 h
    trivial

theorem avoids_asKind? {kind : String} (hs : ∀ n, Without name (s.history.snapshot n))
    (htarget : target.Avoids name) (h : asKind? s kind target = some found) :
    found.Avoids name := by
  unfold asKind? at h
  split at h
  · cases h
    trivial
  · cases h
    exact htarget
  · obtain ⟨n, -, rfl⟩ := Option.map_eq_some_iff.1 h
    trivial
  · obtain ⟨t, ht, rfl⟩ := Option.map_eq_some_iff.1 h
    exact htarget.snapshot? hs ht
  · cases h
    trivial
  · cases h
    trivial
  · cases h

theorem avoids_follow (hs : ∀ n, Without name (s.history.snapshot n)) {fuel : Nat} {steps : List Char}
    (htarget : target.Avoids name) (h : follow s fuel target steps = some found) :
    found.Avoids name := by
  fun_induction follow s fuel target steps with
  | case1 => cases h
  | case2 =>
    cases h
    exact htarget
  | case3 fuel t cs kind rest _ ih =>
    obtain ⟨next, hnext, h⟩ := Option.bind_eq_some_iff.1 h
    exact ih next (avoids_asKind? hs htarget hnext) h
  | case4 => cases h
  | case5 fuel t cs _ k rest _ parent ih =>
    obtain ⟨n, -, h⟩ := Option.bind_eq_some_iff.1 h
    exact ih n trivial h
  | case6 fuel t cs k rest _ n ih =>
    obtain ⟨n, -, h⟩ := Option.bind_eq_some_iff.1 h
    exact ih n trivial h
  | case7 fuel t cs =>
    obtain ⟨files, hfiles, h⟩ := Option.bind_eq_some_iff.1 h
    exact avoids_atPath? (htarget.snapshot? hs hfiles) h
  | case8 => cases h

theorem avoids_reference? (h : reference? s name = some found) {part : String} : found.Avoids part := by
  unfold reference? at h
  split at h
  · split at h
    · obtain ⟨n, -, rfl⟩ := Option.map_eq_some_iff.1 h
      trivial
    · cases h
  · split at h
    · cases h
      trivial
    · obtain ⟨t, -, rfl⟩ := Option.map_eq_some_iff.1 h
      trivial

theorem avoids_formerValue? {k : Nat} {part : String} (h : formerValue? s name k = some found) :
    found.Avoids part := by
  unfold formerValue? at h
  split at h
  · exact avoids_reference? h
  · obtain ⟨n, -, rfl⟩ := Option.map_eq_some_iff.1 h
    trivial

theorem avoids_targetsBelow (hs : Without name snapshot) (h : found ∈ targetsBelow snapshot) :
    found.Avoids name := by
  obtain ⟨⟨path, text⟩, -, hfound⟩ := List.mem_flatMap.1 h
  obtain ⟨k, -, hk⟩ := List.mem_filterMap.1 hfound
  exact avoids_atPath? hs hk

theorem avoids_targets (hs : ∀ n, Without name (s.history.snapshot n)) (hindex : Without name s.index)
    (h : found ∈ targets s) : found.Avoids name := by
  rw [targets, List.mem_append, List.mem_append] at h
  rcases h with (hcommit | htag) | hbelow
  · obtain ⟨n, -, hn⟩ := List.mem_flatMap.1 hcommit
    rcases List.mem_cons.1 hn with rfl | hn
    · trivial
    rcases List.mem_cons.1 hn with rfl | hn
    · exact hs n
    · exact avoids_targetsBelow (hs n) hn
  · obtain ⟨t, -, rfl⟩ := List.mem_map.1 htag
    trivial
  · exact avoids_targetsBelow hindex hbelow

theorem mem_of_abbreviated? {digits : List Char} (h : abbreviated? s digits = some found) :
    found ∈ .tree [] :: targets s := by
  unfold abbreviated? at h
  dsimp only at h
  generalize hknown : (if (digits.map Char.toLower).length = 40 then Target.tree [] :: targets s
    else targets s) = known at h
  have hsub : ∀ t ∈ known, t ∈ .tree [] :: targets s := by
    rw [← hknown]
    split_ifs
    · exact fun t ht => ht
    · exact fun t ht => List.mem_cons_of_mem _ ht
  split at h
  · cases h
  · rename_i first others heq
    split_ifs at h
    obtain rfl := Option.some.inj h
    have hmem : first ∈ first :: others := List.mem_cons_self
    rw [← heq] at hmem
    exact hsub first (List.mem_filter.1 hmem).1

theorem isStrict_of_described? (h : described? s name = some found) :
    RefName.isStrict name = true := by
  unfold described? at h
  split_ifs at h with hstrict
  exact hstrict

theorem avoids_described? {part : String} (hs : ∀ n, Without part (s.history.snapshot n))
    (hindex : Without part s.index) (h : described? s name = some found) : found.Avoids part := by
  rw [described?, if_pos (isStrict_of_described? h)] at h
  obtain ⟨digits, -, hfound⟩ := Option.bind_eq_some_iff.1 h
  rcases List.mem_cons.1 (mem_of_abbreviated? hfound) with rfl | hmem
  · exact fun entry hentry => absurd hentry List.not_mem_nil
  · exact avoids_targets hs hindex hmem

theorem avoids_start? {rest steps : List Char} {part : String}
    (hs : ∀ n, Without part (s.history.snapshot n)) (hindex : Without part s.index)
    (h : start? s name steps = some (found, rest)) : found.Avoids part := by
  unfold start? at h
  split at h
  · obtain ⟨t, ht, heq⟩ := Option.map_eq_some_iff.1 h
    cases heq
    exact avoids_formerValue? ht
  · obtain ⟨t, ht, heq⟩ := Option.map_eq_some_iff.1 h
    cases heq
    exact avoids_reference? ht
  · cases h
  · obtain ⟨t, ht, heq⟩ := Option.map_eq_some_iff.1 h
    cases heq
    exact avoids_described? hs hindex ht

/-- What no path of a history and of the index goes through, no target of a revision goes through. -/
theorem without_of_resolve {revision : String} (hs : ∀ n, Without name (s.history.snapshot n))
    (hindex : Without name s.index) (h : resolve s revision = some target)
    (hsnapshot : target.snapshot? s = some snapshot) : Without name snapshot := by
  obtain ⟨⟨first, rest⟩, hfirst, h⟩ := Option.bind_eq_some_iff.1 h
  exact (avoids_follow hs (avoids_start? hs hindex hfirst) h).snapshot? hs hsnapshot

/-! ### Names of branches -/

/-- A name that is kept as it is under the place of branches, and that leads to its branch. -/
structure PlainBranch (name : String) : Prop where
  kept : RefName.branch? name = some (RefName.headsPlace ++ name)
  stepless : splitName (RefName.headsPlace ++ name).toList = ((RefName.headsPlace ++ name).toList, [])
  shortened : RefName.shorten (RefName.headsPlace ++ name) = name

instance (name : String) : Decidable (PlainBranch name) :=
  decidable_of_iff (RefName.branch? name = some (RefName.headsPlace ++ name) ∧
    splitName (RefName.headsPlace ++ name).toList = ((RefName.headsPlace ++ name).toList, []) ∧
      RefName.shorten (RefName.headsPlace ++ name) = name)
    ⟨fun h => ⟨h.1, h.2.1, h.2.2⟩, fun h => ⟨h.kept, h.stepless, h.shortened⟩⟩

/-- Without steps a name leads to its reference, and to what it describes if there is no such
reference. -/
theorem resolve_of_stepless {revision : String}
    (h : splitName revision.toList = (revision.toList, [])) :
    resolve s revision =
      (fullName? s revision).elim (described? s revision) (reference? s) := by
  simp only [Revision.resolve, h, String.ofList_toList, start?, valueStep?]
  cases fullName? s revision with
  | none => cases described? s revision <;> simp [follow]
  | some full => cases hfound : reference? s full <;> simp [hfound, follow]

theorem headsPlace_append_ne_headFile (name : String) : RefName.headsPlace ++ name ≠ Store.headFile := by
  intro heq
  have hchars := congrArg (List.head? ∘ String.toList) heq
  have hfirst : RefName.headsPlace.toList = 'r' :: "efs/heads/".toList := by decide
  simp [hfirst, Store.headFile] at hchars

theorem resolve_tip {n : Nat} (hkept : RefName.branch? name = some (RefName.headsPlace ++ name))
    (hstepless : splitName (RefName.headsPlace ++ name).toList =
      ((RefName.headsPlace ++ name).toList, []))
    (hn : s.branches.lookup (RefName.headsPlace ++ name) = some n) :
    resolve s (RefName.headsPlace ++ name) = some (.commit n) := by
  have hstrict : RefName.isStrict (RefName.headsPlace ++ name) = true := by
    rw [RefName.isStrict, RefName.normalize?_headsPlace_append, hkept]
    exact decide_eq_true rfl
  have hreference : reference? s (RefName.headsPlace ++ name) = some (.commit n) := by
    simp only [reference?, if_neg (headsPlace_append_ne_headFile name), hn]
  have hfull : fullName? s (RefName.headsPlace ++ name) = some (RefName.headsPlace ++ name) := by
    have hplaces : places.map (· ++ (RefName.headsPlace ++ name)) = (RefName.headsPlace ++ name) ::
        ["refs/", RefName.tagsPlace, RefName.headsPlace].map (· ++ (RefName.headsPlace ++ name)) := by
      simp [places]
    rw [fullName?, hplaces, List.find?_cons_of_pos]
    rw [hstrict, hreference]
    rfl
  rw [resolve_of_stepless hstepless, hfull, Option.elim_some]
  exact hreference

theorem PlainBranch.resolve {n : Nat} (h : PlainBranch name)
    (hn : s.branches.lookup (RefName.headsPlace ++ name) = some n) :
    resolve s (RefName.headsPlace ++ name) = some (.commit n) :=
  resolve_tip h.kept h.stepless hn

end ReleaseHistory.Git.Revision
