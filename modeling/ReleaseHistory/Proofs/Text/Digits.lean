import Mathlib
import ReleaseHistory.Text.Digits

/-!
# Writing and reading numerals

A numeral of some digits stands for a number below that power of ten. A number written with zeros in
front reads back as itself, and has exactly the width asked for if it is small enough.
-/

namespace ReleaseHistory.Text

/-! ### Reading -/

theorem value_eq (cs : List Char) : value cs = Nat.ofDigitChars 10 cs 0 :=
  Nat.ofDigitChars_eq_foldl.symm

theorem isDigit_iff {c : Char} : isDigit c = true ↔ 48 ≤ c.toNat ∧ c.toNat ≤ 57 := by
  simp only [isDigit, Bool.and_eq_true, decide_eq_true_eq, Char.le_def, UInt32.le_iff_toNat_le]
  rfl

theorem digitValue_lt {c : Char} (h : isDigit c = true) : digitValue c < 10 := by
  rw [isDigit_iff] at h
  unfold digitValue
  rw [show '0'.toNat = 48 from rfl]
  omega

theorem value_cons (c : Char) (cs : List Char) :
    value (c :: cs) = 10 ^ cs.length * digitValue c + value cs := by
  rw [value_eq, value_eq, Nat.ofDigitChars_cons, Nat.ofDigitChars_eq_ofDigitChars_zero]
  simp [digitValue]

theorem value_lt {cs : List Char} (h : ∀ c ∈ cs, isDigit c = true) : value cs < 10 ^ cs.length := by
  induction cs with
  | nil => decide
  | cons c cs ih =>
    have hc := digitValue_lt (h c (List.mem_cons_self ..))
    have hcs := ih fun d hd => h d (List.mem_cons_of_mem c hd)
    rw [value_cons, List.length_cons, Nat.pow_succ]
    calc 10 ^ cs.length * digitValue c + value cs
        < 10 ^ cs.length * digitValue c + 10 ^ cs.length := by omega
      _ = 10 ^ cs.length * (digitValue c + 1) := by rw [Nat.mul_add, Nat.mul_one]
      _ ≤ 10 ^ cs.length * 10 := Nat.mul_le_mul_left _ hc

/-- The digits in front of a text are those of a numeral, if no digit comes after it. -/
theorem takeWhile_digits {ds rest : List Char} (h : ∀ c ∈ ds, isDigit c = true)
    (hrest : ∀ c ∈ rest.head?, isDigit c = false) :
    (ds ++ rest).takeWhile isDigit = ds ∧ (ds ++ rest).dropWhile isDigit = rest := by
  have hhead : rest.takeWhile isDigit = [] ∧ rest.dropWhile isDigit = rest := by
    cases rest with
    | nil => exact ⟨rfl, rfl⟩
    | cons c rest =>
      have hc := hrest c rfl
      simp [hc]
  rw [List.takeWhile_append_of_pos h, List.dropWhile_append_of_pos h, hhead.1, hhead.2,
    List.append_nil]
  exact ⟨rfl, rfl⟩

/-- A numeral of 64 bits is read from its digits, with or without a plus sign in front. -/
theorem word?_eq_some {s : String} {n : Nat} :
    word? s = some n ↔ ∃ digits, (s.toList = digits ∨ s.toList = '+' :: digits) ∧ digits ≠ [] ∧
      (∀ c ∈ digits, isDigit c = true) ∧ value digits = n ∧ n ≤ maxWord := by
  have hread : ∀ digits : List Char,
      (if digits.isEmpty || !digits.all isDigit then none
        else if value digits ≤ maxWord then some (value digits) else none) = some n ↔
      digits ≠ [] ∧ (∀ c ∈ digits, isDigit c = true) ∧ value digits = n ∧ n ≤ maxWord := by
    intro digits
    by_cases hdigits : digits ≠ [] ∧ ∀ c ∈ digits, isDigit c = true
    · rw [if_neg (by simpa using hdigits), ← and_assoc, and_iff_right hdigits]
      grind
    · rw [if_pos (by simpa [imp_iff_not_or] using hdigits), ← and_assoc]
      simp [hdigits]
  unfold word?
  split
  · rename_i cs hs
    rw [hread, hs]
    constructor
    · intro h
      exact ⟨cs, .inr rfl, h⟩
    · rintro ⟨digits, rfl | hcs, h⟩
      · exact absurd (h.2.1 '+' (List.mem_cons_self ..)) (by decide)
      · rwa [(List.cons.inj hcs).2]
  · rename_i hplus
    rw [hread]
    constructor
    · intro h
      exact ⟨s.toList, .inl rfl, h⟩
    · rintro ⟨digits, hs | hs, h⟩
      · rwa [hs]
      · exact absurd hs (hplus digits)

theorem isDigit_of_word? {s : String} {n : Nat} (h : word? s = some n) {c : Char}
    (hc : c ∈ s.toList) : c = '+' ∨ isDigit c = true := by
  obtain ⟨digits, hs | hs, -, hdigits, -⟩ := word?_eq_some.1 h
  · exact .inr (hdigits c (hs ▸ hc))
  · rw [hs] at hc
    exact (List.mem_cons.1 hc).imp_right (hdigits c)

/-! ### Writing -/

theorem toList_padded (width n : Nat) :
    (padded width n).toList =
      List.replicate (width - (Nat.toDigits 10 n).length) '0' ++ Nat.toDigits 10 n := by
  simp [padded, ← String.length_toList]

theorem isDigit_of_mem_padded {width n : Nat} {c : Char} (h : c ∈ (padded width n).toList) :
    isDigit c = true := by
  rw [toList_padded, List.mem_append] at h
  rcases h with h | h
  · rw [List.eq_of_mem_replicate h]
    rfl
  · exact Nat.isDigit_of_mem_toDigits (by decide) (by decide) h

theorem length_padded {width n : Nat} (hwidth : 0 < width) (h : n < 10 ^ width) :
    (padded width n).toList.length = width := by
  have hdigits := (Nat.length_toDigits_le_iff (by decide) hwidth).2 h
  rw [toList_padded, List.length_append, List.length_replicate]
  omega

theorem value_padded (width n : Nat) : value (padded width n).toList = n := by
  rw [toList_padded, value_eq, Nat.ofDigitChars_append, Nat.ofDigitChars_replicate_zero,
    Nat.mul_zero, Nat.ofDigitChars_ten_toDigits]

/-! ### Numerals as they are written -/

/-- A numeral as a number is written: digits, and no zero in front of others. -/
structure Numeral (ds : List Char) : Prop where
  nonempty : ds ≠ []
  digits : ∀ c ∈ ds, isDigit c = true
  leading : ds.head? = some '0' → ds.length = 1

theorem value_concat (ds : List Char) (c : Char) :
    value (ds ++ [c]) = 10 * value ds + digitValue c := by
  rw [value, List.foldl_append]
  rfl

theorem digitChar_digitValue {c : Char} (h : isDigit c = true) :
    Nat.digitChar (digitValue c) = c := by
  have hdigit : ∀ n, 48 ≤ n → n ≤ 57 → Nat.digitChar (n - 48) = Char.ofNat n := by
    intro n lower upper
    interval_cases n <;> rfl
  obtain ⟨lower, upper⟩ := isDigit_iff.1 h
  exact (hdigit c.toNat lower upper).trans (Char.ofNat_toNat c)

theorem toDigits_value {ds : List Char} (h : Numeral ds) : Nat.toDigits 10 (value ds) = ds := by
  induction ds using List.reverseRecOn with
  | nil => exact absurd rfl h.nonempty
  | append_singleton ds c ih =>
    have hc : isDigit c = true := h.digits c (by simp)
    have hlast : Nat.toDigits 10 (digitValue c) = [c] := by
      rw [Nat.toDigits_of_lt_base (digitValue_lt hc), digitChar_digitValue hc]
    by_cases hds : ds = []
    · subst hds
      rw [List.nil_append, value_cons]
      simpa [value] using hlast
    · have hhead : ds.head? ≠ some '0' := by
        intro hzero
        have hlength := h.leading (by rw [List.head?_append, hzero]; rfl)
        have hpos := List.length_pos_iff.2 hds
        rw [List.length_append, List.length_singleton] at hlength
        omega
      have hrest := ih ⟨hds, fun d hd => h.digits d (List.mem_append_left _ hd),
        fun hzero => absurd hzero hhead⟩
      have hpos : 0 < value ds := by
        rw [Nat.pos_iff_ne_zero]
        intro hzero
        rw [hzero, Nat.toDigits_zero] at hrest
        exact hhead (by rw [← hrest]; rfl)
      rw [value_concat, ← Nat.toDigits_append_toDigits (by decide) hpos (digitValue_lt hc), hrest,
        hlast]

end ReleaseHistory.Text
