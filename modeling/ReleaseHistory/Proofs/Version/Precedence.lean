import ReleaseHistory.Version.Release

/-!
# Precedence is an order

Identifiers, lists of identifiers and versions are compared by functions into `Ordering`. Each of
them is oriented and transitive, and comparing identifiers or core versions gives `.eq` only where
the two are the same. A channel therefore has its releases in ascending order as soon as each one
follows the one right before it.
-/

namespace ReleaseHistory.Version
open Std

/-! ### Identifiers -/

instance : TransCmp Identifier.precedence where
  eq_swap {a b} := by
    cases a <;> cases b <;> simp only [Identifier.precedence, Ordering.swap_lt, Ordering.swap_gt]
    · exact OrientedOrd.eq_swap
    · exact OrientedOrd.eq_swap
  isLE_trans {a b c} hab hbc := by
    cases a <;> cases b <;> cases c <;> simp only [Identifier.precedence] at hab hbc ⊢
    case numeric.numeric.numeric => exact TransOrd.isLE_trans hab hbc
    case word.word.word => exact TransOrd.isLE_trans hab hbc
    all_goals first | rfl | exact absurd hab (by decide) | exact absurd hbc (by decide)

instance : LawfulEqCmp Identifier.precedence where
  eq_of_compare {a b} h := by
    cases a <;> cases b <;> simp only [Identifier.precedence] at h
    · rw [LawfulEqOrd.eq_of_compare h]
    · cases h
    · cases h
    · rw [LawfulEqOrd.eq_of_compare h]

/-! ### Prereleases -/

namespace Core

theorem identifiersPrecedence_eq (as bs : List Identifier) :
    identifiersPrecedence as bs = List.compareLex Identifier.precedence as bs := by
  induction as generalizing bs with
  | nil => cases bs <;> rfl
  | cons a as ih =>
    cases bs with
    | nil => rfl
    | cons b bs => rw [identifiersPrecedence, ih, List.compareLex_cons_cons]

/-- Where both versions have a prerelease, the prereleases are compared identifier by
identifier. -/
theorem prereleasePrecedence_cons (a b : Identifier) (as bs : List Identifier) :
    prereleasePrecedence (a :: as) (b :: bs) =
      List.compareLex Identifier.precedence (a :: as) (b :: bs) := by
  rw [← identifiersPrecedence_eq]
  rfl

@[simp] theorem prereleasePrecedence_nil : prereleasePrecedence [] [] = .eq := rfl

@[simp] theorem prereleasePrecedence_nil_cons (b : Identifier) (bs : List Identifier) :
    prereleasePrecedence [] (b :: bs) = .gt := rfl

@[simp] theorem prereleasePrecedence_cons_nil (a : Identifier) (as : List Identifier) :
    prereleasePrecedence (a :: as) [] = .lt := rfl

instance : TransCmp prereleasePrecedence where
  eq_swap {as bs} := by
    cases as <;> cases bs
    · rfl
    · rfl
    · rfl
    · rw [prereleasePrecedence_cons, prereleasePrecedence_cons]
      exact OrientedCmp.eq_swap
  isLE_trans {as bs cs} hab hbc := by
    cases as <;> cases bs <;> cases cs
    case cons.cons.cons =>
      rw [prereleasePrecedence_cons] at hab hbc ⊢
      exact TransCmp.isLE_trans hab hbc
    all_goals simp_all

instance : LawfulEqCmp prereleasePrecedence where
  eq_of_compare {as bs} h := by
    cases as <;> cases bs
    · rfl
    · cases h
    · cases h
    · rw [prereleasePrecedence_cons] at h
      exact LawfulEqCmp.eq_of_compare h

/-! ### Versions -/

theorem precedence_eq_compareLex :
    precedence = compareLex (compareOn major) (compareLex (compareOn minor)
      (compareLex (compareOn patch) fun v w => prereleasePrecedence v.prerelease w.prerelease)) :=
  rfl

instance : TransCmp fun v w : Core => prereleasePrecedence v.prerelease w.prerelease where
  eq_swap {v w} := @OrientedCmp.eq_swap _ prereleasePrecedence _ v.prerelease w.prerelease
  isLE_trans {u v w} :=
    @TransCmp.isLE_trans _ prereleasePrecedence _ u.prerelease v.prerelease w.prerelease

instance : TransCmp precedence := by
  rw [precedence_eq_compareLex]
  infer_instance

instance : LawfulEqCmp precedence where
  eq_of_compare {v w} h := by
    simp only [precedence, Ordering.then_eq_eq, LawfulEqCmp.compare_eq_iff_eq] at h
    cases v
    cases w
    simp_all

end Core

namespace Release

instance : TransCmp precedence where
  eq_swap {v w} := @OrientedCmp.eq_swap _ Core.precedence _ v.core w.core
  isLE_trans {u v w} := @TransCmp.isLE_trans _ Core.precedence _ u.core v.core w.core

theorem ne_of_precedence_eq_gt {v w : Release} (h : w.precedence v = .gt) : v ≠ w := by
  rintro rfl
  have hself : v.precedence v = .eq := ReflCmp.compare_self
  rw [hself] at h
  cases h

end Release

end ReleaseHistory.Version
