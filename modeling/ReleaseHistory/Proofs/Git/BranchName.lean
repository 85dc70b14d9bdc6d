import ReleaseHistory.Proofs.Git.Revision

/-!
# Names that branches and tags can have

A name that is kept as it stands under the place of branches has none of the signs in it that begin a
step of a revision. So it leads to its branch, and it is read back as it was given unless it begins
with the place of branches itself. Names of branches and of tags are found under places of their own.
-/

namespace ReleaseHistory.Git

namespace RefName

variable {name a b : String} {cs : List Char}

/-- A branch can have a name, and has it as it stands. -/
structure ValidBranch (name : String) : Prop where
  kept : branch? name = some (headsPlace ++ name)
  begins : mayBegin name = true
  ne_head : name ≠ "HEAD"

/-- A tag can have a name, and has it as it stands. -/
structure ValidTag (name : String) : Prop where
  kept : tag? name = some (tagsPlace ++ name)
  begins : mayBegin name = true

/-- A name begins with the place of branches. -/
def InPlace (name : String) : Prop := ∃ rest, name = headsPlace ++ rest

/-! ### Characters of names -/

theorem isPart_of_normalize? {full : String} (h : normalize? name = some full) :
    ∀ part ∈ Text.splitAll '/' name.toList, isPart part = true := by
  unfold normalize? at h
  dsimp only at h
  split at h
  · rename_i hparts
    simp only [Bool.and_eq_true, List.all_eq_true] at hparts
    exact hparts.1.1.1
  · cases h

/-- Neither a sign nor a pair of signs that begins a step stands in a part of a name. -/
def Signless (part : List Char) : Prop :=
  (∀ c ∈ part, isMember c = true) ∧ hasPair '@' '\x7b' part = false

theorem signless_of_isPart {part : List Char} (h : isPart part = true) : Signless part := by
  simp only [isPart, Bool.and_eq_true, Bool.not_eq_true', List.all_eq_true] at h
  exact ⟨h.1.1.1.2, h.1.2⟩

theorem Signless.tail {c : Char} {part : List Char} (h : Signless (c :: part)) : Signless part := by
  obtain ⟨hmembers, hpair⟩ := h
  refine ⟨fun d hd => hmembers d (List.mem_cons_of_mem c hd), ?_⟩
  cases part with
  | nil => rfl
  | cons d part =>
    rw [hasPair, Bool.or_eq_false_iff] at hpair
    exact hpair.2

theorem Signless.not_beginsStep {c : Char} {part rest : List Char} (h : Signless (c :: part))
    (hrest : rest.head? = part.head? ∨ rest.head? = some '/') :
    Revision.beginsStep (c :: rest) = false := by
  obtain ⟨hmembers, hpair⟩ := h
  have hc := hmembers c (List.mem_cons_self ..)
  unfold Revision.beginsStep
  split
  · rename_i heq
    cases heq
    exact absurd hc (by decide)
  · rename_i heq
    cases heq
    exact absurd hc (by decide)
  · rename_i heq
    cases heq
    exact absurd hc (by decide)
  · rename_i after heq
    obtain ⟨rfl, rfl⟩ := List.cons.inj heq
    rcases hrest with hpart | hslash
    · obtain ⟨after', rfl⟩ := List.head?_eq_some_iff.1 (hpart.symm.trans (List.head?_cons ..))
      rw [hasPair] at hpair
      simp at hpair
    · simp at hslash
  · rfl

theorem head?_of_splitAll {sep : Char} {part : List Char} {parts : List (List Char)}
    (h : Text.splitAll sep cs = part :: parts) : cs.head? = part.head? ∨ cs.head? = some sep := by
  cases cs with
  | nil =>
    cases h
    exact .inl rfl
  | cons c cs =>
    rw [Text.splitAll] at h
    split at h
    · rename_i hc
      exact .inr (by rw [hc]; rfl)
    · left
      split at h
      · cases h
        rfl
      · cases h
        rfl

theorem splitName_of_signless (h : ∀ part ∈ Text.splitAll '/' cs, Signless part) :
    Revision.splitName cs = (cs, []) := by
  induction cs with
  | nil => rfl
  | cons c cs ih =>
    have hstep : Revision.beginsStep (c :: cs) = false ∧
        ∀ part ∈ Text.splitAll '/' cs, Signless part := by
      rw [Text.splitAll] at h
      by_cases hc : c = '/'
      · rw [if_pos hc] at h
        subst hc
        exact ⟨rfl, fun part hpart => h part (List.mem_cons_of_mem _ hpart)⟩
      · rw [if_neg hc] at h
        cases hsplit : Text.splitAll '/' cs with
        | nil => exact absurd hsplit (Text.splitAll_ne_nil '/' cs)
        | cons part parts =>
          rw [hsplit] at h
          obtain ⟨hfirst, hrest⟩ := List.forall_mem_cons.1 h
          exact ⟨hfirst.not_beginsStep (head?_of_splitAll hsplit),
            List.forall_mem_cons.2 ⟨hfirst.tail, hrest⟩⟩
    rw [Revision.splitName, hstep.1, ih hstep.2]
    rfl

/-! ### Short names -/

theorem inPlace_iff : InPlace name ↔ ∃ rest, Text.dropStart? headsPlace.toList name.toList = some rest := by
  constructor
  · rintro ⟨rest, rfl⟩
    exact ⟨rest.toList, Text.dropStart?_eq_some.2 String.toList_append⟩
  · rintro ⟨rest, hrest⟩
    refine ⟨String.ofList rest, ?_⟩
    rw [← String.toList_inj, String.toList_append, String.toList_ofList]
    exact Text.dropStart?_eq_some.1 hrest

instance (name : String) : Decidable (InPlace name) :=
  decidable_of_iff ((Text.dropStart? headsPlace.toList name.toList).isSome = true)
    (Option.isSome_iff_exists.trans inPlace_iff.symm)

theorem go_of_not_inPlace (h : Text.dropStart? headsPlace.toList cs = none) (fuel : Nat) :
    shorten.go fuel cs = cs := by
  cases fuel with
  | zero => rfl
  | succ fuel => rw [shorten.go, h]

/-- Nothing is left of the place at the front if there was fuel for the whole name. -/
theorem dropStart?_go {fuel : Nat} (h : cs.length ≤ fuel) :
    Text.dropStart? headsPlace.toList (shorten.go fuel cs) = none := by
  induction fuel generalizing cs with
  | zero =>
    rw [List.eq_nil_of_length_eq_zero (Nat.le_zero.1 h)]
    decide
  | succ fuel ih =>
    rw [shorten.go]
    cases hdrop : Text.dropStart? headsPlace.toList cs with
    | none => exact hdrop
    | some rest =>
      have hlength : cs.length = headsPlace.toList.length + rest.length := by
        rw [Text.dropStart?_eq_some.1 hdrop, List.length_append]
      have hplace : 0 < headsPlace.toList.length := by decide
      exact ih (by omega)

theorem go_eq_go {fuel fuel' : Nat} (h : cs.length ≤ fuel) (h' : cs.length ≤ fuel') :
    shorten.go fuel cs = shorten.go fuel' cs := by
  induction fuel generalizing cs fuel' with
  | zero =>
    rw [List.eq_nil_of_length_eq_zero (Nat.le_zero.1 h), go_of_not_inPlace (by decide),
      go_of_not_inPlace (by decide)]
  | succ fuel ih =>
    cases hdrop : Text.dropStart? headsPlace.toList cs with
    | none => rw [go_of_not_inPlace hdrop, go_of_not_inPlace hdrop]
    | some rest =>
      have hlength : cs.length = headsPlace.toList.length + rest.length := by
        rw [Text.dropStart?_eq_some.1 hdrop, List.length_append]
      have hplace : 0 < headsPlace.toList.length := by decide
      obtain ⟨fewer, rfl⟩ : ∃ fewer, fuel' = fewer + 1 := ⟨fuel' - 1, by omega⟩
      rw [shorten.go, shorten.go, hdrop]
      exact ih (by omega) (by omega)

theorem shorten_append (name : String) : shorten (headsPlace ++ name) = shorten name := by
  have hfirst : Text.dropStart? headsPlace.toList (headsPlace ++ name).toList = some name.toList :=
    Text.dropStart?_eq_some.2 String.toList_append
  have hfuel : (headsPlace ++ name).length = name.length + (headsPlace.length - 1) + 1 := by
    have hplace : 0 < headsPlace.length := by decide
    rw [String.length_append]
    omega
  have henough : name.toList.length ≤ name.length + (headsPlace.length - 1) := by
    rw [String.length_toList]
    exact Nat.le_add_right ..
  rw [shorten, hfuel, shorten.go, hfirst]
  dsimp only
  rw [go_eq_go henough (Nat.le_of_eq String.length_toList), shorten]

theorem not_inPlace_shorten (name : String) : ¬InPlace (shorten name) := by
  rintro h
  obtain ⟨rest, hrest⟩ := inPlace_iff.1 h
  rw [shorten, String.toList_ofList, dropStart?_go (Nat.le_of_eq String.length_toList)] at hrest
  cases hrest

theorem shorten_eq_self_iff : shorten name = name ↔ ¬InPlace name := by
  constructor
  · intro heq
    rw [← heq]
    exact not_inPlace_shorten name
  · intro h
    have hnone : Text.dropStart? headsPlace.toList name.toList = none := by
      rw [← Option.not_isSome_iff_eq_none, Option.isSome_iff_exists, ← inPlace_iff]
      exact h
    rw [shorten, go_of_not_inPlace hnone, String.ofList_toList]

theorem shorten_of_not_inPlace (h : ¬InPlace name) : shorten (headsPlace ++ name) = name :=
  (shorten_append name).trans (shorten_eq_self_iff.2 h)

/-! ### Full names -/

theorem ValidBranch.normalize?_full (h : ValidBranch name) :
    normalize? (headsPlace ++ name) = some (headsPlace ++ name) := by
  rw [normalize?_headsPlace_append]
  exact h.kept

theorem ValidBranch.stepless (h : ValidBranch name) :
    Revision.splitName (headsPlace ++ name).toList = ((headsPlace ++ name).toList, []) :=
  splitName_of_signless fun part hpart =>
    signless_of_isPart (isPart_of_normalize? h.normalize?_full part hpart)

theorem subset_splitOn_append (place : String) (hplace : place ∈ Revision.places) (name : String) :
    Text.splitOn '/' name ⊆ Text.splitOn '/' (place ++ name) := by
  have hbehind : ∀ before : List Char, place.toList = before ++ ['/'] →
      Text.splitOn '/' name ⊆ Text.splitOn '/' (place ++ name) := by
    intro before hbefore
    have hchars : (place ++ name).toList = before ++ '/' :: name.toList := by
      rw [String.toList_append, hbefore, List.append_assoc, List.singleton_append]
    rw [Text.splitOn, Text.splitOn, hchars, Text.splitAll_append, List.map_append]
    exact List.subset_append_right _ _
  simp only [Revision.places, List.mem_cons, List.not_mem_nil, or_false] at hplace
  rcases hplace with rfl | rfl | rfl | rfl
  · rw [String.empty_append]
    exact List.Subset.refl _
  · exact hbehind "refs".toList (by decide)
  · exact hbehind "refs/tags".toList (by decide)
  · exact hbehind "refs/heads".toList (by decide)

theorem eq_of_isStrict_append {place full : String} (hplace : place ∈ Revision.places)
    (hstrict : isStrict (place ++ name) = true) (hfull : normalize? name = some full) : full = name := by
  have hkept := splitOn_normalize? (of_decide_eq_true hstrict)
  have hparts : ∀ part ∈ Text.splitOn '/' name, decide (part ≠ "") = true := fun part hpart =>
    List.filter_eq_self.1 hkept.symm part (subset_splitOn_append place hplace name hpart)
  have hsame := splitOn_normalize? hfull
  rw [List.filter_eq_self.2 hparts] at hsame
  exact Text.splitOn_injective hsame

/-- What the full name of a branch leads to has that name as it stands: in it there are no steps, and
no slashes are repeated. -/
theorem kept_of_resolve {s : Store} {full : String} {target : Revision.Target}
    (hfull : branch? name = some full)
    (h : Revision.resolve s (headsPlace ++ name) = some target) :
    Revision.splitName (headsPlace ++ name).toList = ((headsPlace ++ name).toList, []) ∧
      full = headsPlace ++ name := by
  have hnormal : normalize? (headsPlace ++ name) = some full := by
    rw [normalize?_headsPlace_append, hfull]
  have hstepless := splitName_of_signless fun part hpart =>
    signless_of_isPart (isPart_of_normalize? hnormal part hpart)
  refine ⟨hstepless, ?_⟩
  rw [Revision.resolve_of_stepless hstepless] at h
  cases hfound : Revision.fullName? s (headsPlace ++ name) with
  | none =>
    rw [hfound, Option.elim_none] at h
    have hstrict := Revision.isStrict_of_described? h
    rw [isStrict, hnormal] at hstrict
    exact Option.some.inj (of_decide_eq_true hstrict)
  | some found =>
    obtain ⟨place, hplace, rfl⟩ := List.mem_map.1 (List.mem_of_find?_eq_some hfound)
    have hstrict := List.find?_some hfound
    rw [Bool.and_eq_true] at hstrict
    exact eq_of_isStrict_append hplace hstrict.1 hnormal

/-- A branch that is there is what its full name leads to, unless slashes are repeated in it. -/
theorem resolve_branch {s : Store} {full : String} {n : Nat} {target : Revision.Target}
    (hfull : branch? name = some full) (hn : s.branches.lookup full = some n)
    (h : Revision.resolve s (headsPlace ++ name) = some target) : target = .commit n := by
  obtain ⟨hstepless, rfl⟩ := kept_of_resolve hfull h
  rw [Revision.resolve_tip hfull hstepless hn] at h
  exact (Option.some.inj h).symm

theorem toList_place (name : String) :
    (headsPlace ++ name).toList[5]? = some 'h' ∧ (tagsPlace ++ name).toList[5]? = some 't' ∧
      ("refs/" ++ (headsPlace ++ name)).toList[5]? = some 'r' := by
  have hheads : headsPlace.toList = ['r', 'e', 'f', 's', '/', 'h', 'e', 'a', 'd', 's', '/'] := by
    decide
  have htags : tagsPlace.toList = ['r', 'e', 'f', 's', '/', 't', 'a', 'g', 's', '/'] := by decide
  have hrefs : "refs/".toList = ['r', 'e', 'f', 's', '/'] := by decide
  simp [String.toList_append, hheads, htags, hrefs]

theorem tagsPlace_ne_headsPlace : tagsPlace ++ a ≠ headsPlace ++ b := by
  intro heq
  have htag := (toList_place a).2.1
  rw [heq, (toList_place b).1] at htag
  exact absurd htag (by decide)

theorem refs_ne_place : "refs/" ++ (headsPlace ++ name) ≠ headsPlace ++ a ∧
    "refs/" ++ (headsPlace ++ name) ≠ tagsPlace ++ a := by
  constructor
  · intro heq
    have hrefs := (toList_place name).2.2
    rw [heq, (toList_place a).1] at hrefs
    exact absurd hrefs (by decide)
  · intro heq
    have hrefs := (toList_place name).2.2
    rw [heq, (toList_place a).2.1] at hrefs
    exact absurd hrefs (by decide)

/-- A tag that has the full name of a branch is found under the place of tags and that name. -/
theorem isStrict_of_validTag (h : ValidTag (headsPlace ++ name)) :
    isStrict (tagsPlace ++ (headsPlace ++ name)) = true := by
  have hbelow : below tagsPlace (headsPlace ++ name) = tagsPlace ++ (headsPlace ++ name) := by
    have hplace : headsPlace.toList = 'r' :: "efs/heads/".toList := by decide
    have hfirst : (headsPlace ++ name).toList.dropWhile (· = '/') = (headsPlace ++ name).toList := by
      rw [String.toList_append, hplace, List.cons_append, List.dropWhile_cons_of_neg (by decide)]
    rw [below, hfirst, String.ofList_toList]
  have hkept := h.kept
  rw [tag?, hbelow] at hkept
  rw [isStrict, hkept]
  exact decide_eq_true rfl

theorem tagsPlace_injective (h : tagsPlace ++ a = tagsPlace ++ b) : a = b := by
  have hchars := congrArg String.toList h
  rw [String.toList_append, String.toList_append] at hchars
  exact String.toList_injective (List.append_cancel_left hchars)

end RefName

end ReleaseHistory.Git
