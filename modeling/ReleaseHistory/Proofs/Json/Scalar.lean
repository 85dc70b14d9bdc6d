import ReleaseHistory.Json.Parser
import ReleaseHistory.Json.Printer
import ReleaseHistory.Proofs.Text.Digits

/-!
# Reading numbers and strings as written

A number that fits in 64 bits is read from its digits. A string is read from its quoted form,
whatever characters it holds.
-/

namespace ReleaseHistory.Json

open Text (isDigit digitValue maxWord hexDigit hexNumber?)

/-! ### Numbers -/

theorem addWhole_eq {m : Nat} {cs : List Char} (h : Nat.ofDigitChars 10 cs m ≤ maxWord) :
    addWhole ⟨m, 0⟩ cs = ⟨Nat.ofDigitChars 10 cs m, 0⟩ := by
  induction cs generalizing m with
  | nil => rfl
  | cons c cs ih =>
    have hcons : Nat.ofDigitChars 10 (c :: cs) m = Nat.ofDigitChars 10 cs (10 * m + digitValue c) :=
      Nat.ofDigitChars_cons ..
    have hpow : 1 ≤ 10 ^ cs.length := Nat.one_le_pow _ _ (by decide)
    have hsplit : Nat.ofDigitChars 10 cs (10 * m + digitValue c) =
        10 ^ cs.length * (10 * m + digitValue c) + Nat.ofDigitChars 10 cs 0 :=
      Nat.ofDigitChars_eq_ofDigitChars_zero
    have hle : 10 * m + digitValue c ≤ Nat.ofDigitChars 10 cs (10 * m + digitValue c) := by
      rw [hsplit]
      exact Nat.le_add_right_of_le (Nat.le_mul_of_pos_left _ hpow)
    rw [hcons] at h ⊢
    have hfits : 10 * m + digitValue c ≤ maxWord := Nat.le_trans hle h
    rw [addWhole]
    simp only [decide_true, Bool.true_and, hfits, if_true]
    exact ih h

/-- The digits of a number do not begin with a zero, but for zero itself. -/
theorem head?_toDigits {n : Nat} (h : n ≠ 0) : (Nat.toDigits 10 n).head? ≠ some '0' := by
  induction n using Nat.strong_induction_on with
  | h n ih =>
    by_cases hn : n < 10
    · rw [Nat.toDigits_of_lt_base hn]
      interval_cases n <;> first | contradiction | decide
    · have hdiv : n / 10 ≠ 0 := by omega
      have hsmaller := ih (n / 10) (by omega) hdiv
      have hne : Nat.toDigits 10 (n / 10) ≠ [] := Nat.toDigits_ne_nil
      rw [Nat.toDigits_of_base_le (by decide) (by omega), List.head?_append_of_ne_nil _ hne]
      exact hsmaller

/-- What can stand after a number. -/
def EndsNumber (rest : List Char) : Prop :=
  ∀ c ∈ rest.head?, isDigit c = false ∧ c ≠ '.' ∧ c ≠ 'e' ∧ c ≠ 'E'

theorem isDigit_of_mem_toDigits {n : Nat} {c : Char} (h : c ∈ Nat.toDigits 10 n) :
    isDigit c = true :=
  Nat.isDigit_of_mem_toDigits (by decide) (by decide) h

/-- The digits of a number are read as they stand, with the sign before them. -/
theorem readNumber_digits (n : Nat) {rest : List Char} (hrest : EndsNumber rest) :
    readNumber (Nat.toDigits 10 n ++ rest) =
        some (numberValue false (Nat.toDigits 10 n) none none, rest) ∧
      readNumber ('-' :: (Nat.toDigits 10 n ++ rest)) =
        some (numberValue true (Nat.toDigits 10 n) none none, rest) := by
  obtain ⟨htake, hdrop⟩ := Text.takeWhile_digits (fun _ hc => isDigit_of_mem_toDigits hc)
    fun c hc => (hrest c hc).1
  have hnil : Nat.toDigits 10 n ≠ [] := Nat.toDigits_ne_nil
  have hempty : (Nat.toDigits 10 n).isEmpty = false := by simp
  have hzero : (decide ((Nat.toDigits 10 n).head? = some '0') &&
      decide ((Nat.toDigits 10 n).length ≠ 1)) = false := by
    by_cases hn : n = 0
    · subst hn
      decide
    · rw [decide_eq_false (head?_toDigits hn), Bool.false_and]
  -- after the digits come neither a point nor an exponent
  have hfraction : ∀ cs, rest ≠ '.' :: cs := by
    rintro cs rfl
    exact (hrest '.' rfl).2.1 rfl
  have hexponent : ∀ c cs, rest = c :: cs → ¬(c = 'e' ∨ c = 'E') := by
    rintro c cs rfl h
    obtain ⟨-, -, he, hE⟩ := hrest c rfl
    exact h.elim he hE
  have hsign : ∀ cs, Nat.toDigits 10 n ++ rest ≠ '-' :: cs := by
    intro cs heq
    rw [heq] at htake
    exact hnil htake.symm
  unfold readNumber
  constructor
  · split
    rename_i heq
    split at heq
    · rename_i hminus
      exact absurd hminus (hsign _)
    obtain ⟨rfl, rfl⟩ := Prod.mk.inj heq
    simp only [htake, hdrop, hempty, hzero, Bool.or_false, Bool.false_eq_true, if_false]
    cases rest with
    | nil => rfl
    | cons c rest => simp [hexponent c rest rfl]
  · simp only [htake, hdrop, hempty, hzero, Bool.or_false, Bool.false_eq_true, if_false]
    cases rest with
    | nil => rfl
    | cons c rest => simp [hexponent c rest rfl]

/-- The numbers that are read exactly. -/
def Fits (n : Int) : Prop := -0x8000000000000000 ≤ n ∧ n ≤ maxWord

theorem numberValue_toDigits {n : Nat} (h : n ≤ maxWord) :
    numberValue false (Nat.toDigits 10 n) none none = .integer n ∧
      (n ≠ 0 → n ≤ 0x8000000000000000 →
        numberValue true (Nat.toDigits 10 n) none none = .integer (-n)) := by
  have hvalue : Nat.ofDigitChars 10 (Nat.toDigits 10 n) 0 = n := Nat.ofDigitChars_ten_toDigits
  have hwhole : addWhole ⟨0, 0⟩ (Nat.toDigits 10 n) = ⟨n, 0⟩ := by
    rw [addWhole_eq (by rw [hvalue]; exact h), hvalue]
  constructor
  · simp [numberValue, hwhole]
  · intro hn hle
    simp [numberValue, hwhole, hn, Nat.not_lt.2 hle]

theorem readNumber_toString {n : Int} {rest : List Char} (hn : Fits n) (hrest : EndsNumber rest) :
    readNumber ((toString n).toList ++ rest) = some (.integer n, rest) := by
  obtain ⟨hlow, hhigh⟩ := hn
  cases n with
  | ofNat n =>
    have hfits : n ≤ maxWord := by
      have hcast : ((n : Nat) : Int) ≤ (maxWord : Int) := hhigh
      omega
    have htext : (toString (Int.ofNat n)).toList = Nat.toDigits 10 n := Nat.toList_repr
    rw [htext, (readNumber_digits n hrest).1, (numberValue_toDigits hfits).1]
    rfl
  | negSucc n =>
    have hsmall : n + 1 ≤ 0x8000000000000000 := by omega
    have hfits : n + 1 ≤ maxWord := by
      unfold maxWord
      omega
    have htext : (toString (Int.negSucc n)).toList = '-' :: Nat.toDigits 10 (n + 1) := by
      have hrepr : toString (Int.negSucc n) = "-" ++ Nat.repr (n + 1) := rfl
      rw [hrepr, String.toList_append, Nat.toList_repr]
      rfl
    rw [htext, List.cons_append, (readNumber_digits (n + 1) hrest).2,
      (numberValue_toDigits hfits).2 (by omega) hsmall]
    rfl

/-! ### Strings -/

/-- The escapes of one letter, by that letter. -/
def shortEscapes : List (Char × Char) :=
  [('\x22', '\x22'), ('\\', '\\'), ('/', '/'), ('b', '\x08'), ('f', '\x0c'), ('n', '\n'),
    ('r', '\r'), ('t', '\t')]

theorem readUnits_short {c meaning : Char} {cs : List Char} (hc : c ≠ 'u')
    (h : shortEscapes.lookup c = some meaning) :
    readUnits ('\\' :: c :: cs) =
      (readUnits cs).map fun (units, rest) => (.char meaning :: units, rest) := by
  have hlookup : [('\x22', '\x22'), ('\\', '\\'), ('/', '/'), ('b', '\x08'), ('f', '\x0c'),
      ('n', '\n'), ('r', '\r'), ('t', '\t')].lookup c = some meaning := h
  rw [readUnits, hlookup]
  · cases readUnits cs <;> rfl
  · exact fun _ _ _ _ _ heq _ => hc heq

theorem readUnits_control {n : Nat} {cs : List Char} (hn : n < 0x20) :
    readUnits ('\\' :: 'u' :: '0' :: '0' :: hexDigit (n / 16) :: hexDigit (n % 16) :: cs) =
      (readUnits cs).map fun (units, rest) => (.escaped n :: units, rest) := by
  have hnumber : ∀ n < 0x20,
      hexNumber? ['0', '0', hexDigit (n / 16), hexDigit (n % 16)] = some n := by
    decide
  rw [readUnits, hnumber n hn]
  cases readUnits cs <;> rfl

theorem readUnits_plain {c : Char} {cs : List Char} (hquote : c ≠ '\x22') (hslash : c ≠ '\\')
    (hvisible : ¬c.toNat < 0x20) :
    readUnits (c :: cs) = (readUnits cs).map fun (units, rest) => (.char c :: units, rest) := by
  rw [readUnits, if_neg hvisible]
  · cases readUnits cs <;> rfl
  · exact hquote
  · exact fun _ _ _ _ _ h _ => hslash h
  · exact fun _ _ h _ => hslash h

/-- What a character is read as, once escaped. -/
def unitOf (c : Char) : Unit16 :=
  if c.toNat < 0x20 ∧ c ∉ ['\n', '\r', '\t', '\x08', '\x0c'] then .escaped c.toNat else .char c

theorem readUnits_escape (c : Char) (cs : List Char) :
    readUnits (escape c ++ cs) =
      (readUnits cs).map fun (units, rest) => (unitOf c :: units, rest) := by
  unfold escape
  split_ifs with hquote hslash hline hreturn htab hback hform hcontrol
  · subst hquote
    exact readUnits_short (by decide) rfl
  · subst hslash
    exact readUnits_short (by decide) rfl
  · subst hline
    exact readUnits_short (by decide) rfl
  · subst hreturn
    exact readUnits_short (by decide) rfl
  · subst htab
    exact readUnits_short (by decide) rfl
  · subst hback
    exact readUnits_short (by decide) rfl
  · subst hform
    exact readUnits_short (by decide) rfl
  · have hunit : unitOf c = .escaped c.toNat := by
      apply if_pos
      simp [hcontrol, hline, hreturn, htab, hback, hform]
    rw [hunit]
    exact readUnits_control hcontrol
  · have hunit : unitOf c = .char c := if_neg fun h => hcontrol h.1
    rw [hunit]
    exact readUnits_plain hquote hslash hcontrol

theorem joinUnits_unitOf (c : Char) (units : List Unit16) :
    joinUnits (unitOf c :: units) = (joinUnits units).map (c :: ·) := by
  unfold unitOf
  split_ifs with hcontrol
  · have hhigh : ¬0xd800 ≤ c.toNat := by omega
    have hlow : ¬0xdc00 ≤ c.toNat := by omega
    rw [joinUnits.eq_def (.escaped c.toNat :: units)]
    simp only [hhigh, hlow, decide_false, Bool.false_and, Bool.false_eq_true, if_false,
      Char.ofNat_toNat]
  · rfl

theorem readUnits_flatMap_escape (cs rest : List Char) :
    readUnits (cs.flatMap escape ++ '\x22' :: rest) = some (cs.map unitOf, rest) := by
  induction cs with
  | nil => rfl
  | cons c cs ih =>
    rw [List.flatMap_cons, List.append_assoc, readUnits_escape, ih]
    rfl

theorem joinUnits_map_unitOf (cs : List Char) : joinUnits (cs.map unitOf) = some cs := by
  induction cs with
  | nil => rfl
  | cons c cs ih =>
    rw [List.map_cons, joinUnits_unitOf, ih]
    rfl

/-- The characters of a string between its quotes, with the closing one. -/
def quoted (s : String) : List Char := s.toList.flatMap escape ++ ['\x22']

theorem toList_quote (s : String) : (quote s).toList = '\x22' :: quoted s := by
  simp [quote, quoted]

theorem readString_quoted (s : String) (rest : List Char) :
    readString (quoted s ++ rest) = some (some s, rest) := by
  have hunits := readUnits_flatMap_escape s.toList rest
  have hjoin := joinUnits_map_unitOf s.toList
  have hassoc : quoted s ++ rest = s.toList.flatMap escape ++ '\x22' :: rest := by
    simp [quoted]
  simp [readString, hassoc, hunits, hjoin, String.ofList_toList]

end ReleaseHistory.Json
