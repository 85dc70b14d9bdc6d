import ReleaseHistory.Proofs.Text.Digits
import ReleaseHistory.Proofs.Text.Split
import ReleaseHistory.Version.Prerelease

/-!
# How a prerelease is read

A prerelease is a token, or a token and an iteration with a dot between them. No token has a dot in
it, so the first dot of the text, if there is one, decides which of the two it can be. The digits of
an iteration are read with a plus sign in front of them as they are without one; all other texts are
refused.
-/

namespace ReleaseHistory.Version.Prerelease

/-- A channel token as it is written. -/
structure IsToken (s : String) : Prop where
  nonempty : s ≠ ""
  members : ∀ c ∈ s.toList, Identifier.isMember c = true

theorem isToken_iff {s : String} :
    (s.isEmpty || !s.toList.all Identifier.isMember) = false ↔ IsToken s := by
  rw [Bool.or_eq_false_iff, Bool.not_eq_false', List.all_eq_true, String.isEmpty_eq_false_iff]
  exact ⟨fun h => ⟨h.1, h.2⟩, fun h => ⟨h.nonempty, h.members⟩⟩

theorem parse_of_not_mem {s : String} {p : Prerelease} (h : '.' ∉ s.toList) :
    parse s = .ok p ↔ IsToken s ∧ p = ⟨s, none⟩ := by
  unfold parse
  rw [Text.splitOnce_of_not_mem h, ← isToken_iff]
  dsimp only
  by_cases hempty : s.isEmpty = true
  · simp [hempty]
  · rw [if_neg hempty]
    split
    · rename_i htoken
      simp [htoken]
    · rename_i htoken
      rw [Bool.not_eq_true] at htoken
      simp [htoken, eq_comm]

theorem parse_append {token digits : String} {p : Prerelease} (h : '.' ∉ token.toList) :
    parse (token ++ "." ++ digits) = .ok p ↔
      IsToken token ∧ ∃ n, Text.word? digits = some n ∧ p = ⟨token, some n⟩ := by
  have hsplit : Text.splitOnce '.' (token ++ "." ++ digits) = (token, some digits) :=
    Text.splitOnce_append h
  have hempty : (token ++ "." ++ digits).isEmpty = false := by
    simp
  unfold parse
  rw [hsplit, hempty, if_neg Bool.false_ne_true, ← isToken_iff]
  dsimp only
  split
  · rename_i htoken
    simp [htoken]
  · rename_i htoken
    rw [Bool.not_eq_true] at htoken
    cases Text.word? digits with
    | none => simp
    | some n => simp [htoken, eq_comm]

/-! ### How a prerelease is written -/

theorem IsToken.dot_not_mem {s : String} (h : IsToken s) : '.' ∉ s.toList := by
  intro hmem
  exact absurd (h.members '.' hmem) (by decide)

/-- The decimal digits of a number of 64 bits. -/
structure IsIteration (digits : String) (n : Nat) : Prop where
  nonempty : digits ≠ ""
  members : ∀ c ∈ digits.toList, Text.isDigit c = true
  value : Text.value digits.toList = n
  bound : n ≤ Text.maxWord

theorem word?_eq_some_iff {s : String} {n : Nat} :
    Text.word? s = some n ↔ IsIteration s n ∨ ∃ digits, s = "+" ++ digits ∧ IsIteration digits n := by
  rw [Text.word?_eq_some]
  constructor
  · rintro ⟨digits, hs | hs, hne, hdigits, hvalue, hn⟩
    · rw [← hs] at hne hdigits hvalue
      exact .inl ⟨by simpa using hne, hdigits, hvalue, hn⟩
    · have htext : s = "+" ++ String.ofList digits := by
        apply String.toList_injective
        simp [hs]
      exact .inr ⟨_, htext, by simpa using hne, by simpa using hdigits, by simpa using hvalue, hn⟩
  · rintro (h | ⟨digits, rfl, h⟩)
    · exact ⟨s.toList, .inl rfl, by simpa using h.nonempty, h.members, h.value, h.bound⟩
    · exact ⟨digits.toList, .inr (by simp), by simpa using h.nonempty, h.members, h.value, h.bound⟩

/-- A prerelease and its text, with a sign in front of the digits of the iteration. -/
inductive Written (sign : String) : String → Prerelease → Prop
  | token {s : String} (h : IsToken s) : Written sign s ⟨s, none⟩
  | numbered {token digits : String} {n : Nat} (h : IsToken token) (hn : IsIteration digits n) :
    Written sign (token ++ "." ++ (sign ++ digits)) ⟨token, some n⟩

theorem Written.parse_eq_ok {sign s : String} {p : Prerelease} (h : Written sign s p)
    (hsign : sign = "" ∨ sign = "+") : parse s = .ok p := by
  cases h with
  | token h => exact (parse_of_not_mem h.dot_not_mem).2 ⟨h, rfl⟩
  | @numbered token digits n h hn =>
    refine (parse_append h.dot_not_mem).2 ⟨h, n, word?_eq_some_iff.2 ?_, rfl⟩
    rcases hsign with rfl | rfl
    · exact .inl (by rwa [String.empty_append])
    · exact .inr ⟨digits, rfl, hn⟩

theorem written_of_parse_eq_ok {s : String} {p : Prerelease} (h : parse s = .ok p) :
    Written "" s p ∨ Written "+" s p := by
  by_cases hdot : '.' ∈ s.toList
  · obtain ⟨token, rest, htoken, rfl⟩ := Text.exists_eq_append_of_mem hdot
    obtain ⟨htoken, n, hword, rfl⟩ := (parse_append htoken).1 h
    rcases word?_eq_some_iff.1 hword with hn | ⟨digits, rfl, hn⟩
    · have hwritten : Written "" (token ++ "." ++ ("" ++ rest)) ⟨token, some n⟩ :=
        .numbered htoken hn
      rw [String.empty_append] at hwritten
      exact .inl hwritten
    · exact .inr (.numbered htoken hn)
  · obtain ⟨htoken, rfl⟩ := (parse_of_not_mem hdot).1 h
    exact .inl (.token htoken)

/-- The texts that are read are those of a token, or of a token and an iteration, which may have a
plus sign in front of it. Every other text is refused. -/
theorem parse_iff_written (s : String) :
    (∀ p, parse s = .ok p ↔ Written "" s p ∨ Written "+" s p) ∧
      ((∃ e, parse s = .error e) ↔ ∀ p, ¬Written "" s p ∧ ¬Written "+" s p) := by
  have hread : ∀ p, parse s = .ok p ↔ Written "" s p ∨ Written "+" s p := by
    intro p
    refine ⟨written_of_parse_eq_ok, ?_⟩
    rintro (h | h)
    · exact h.parse_eq_ok (.inl rfl)
    · exact h.parse_eq_ok (.inr rfl)
  refine ⟨hread, ?_⟩
  simp only [← not_or, ← hread]
  cases parse s <;> simp

/-- Without a sign there are only members of identifiers and dots. -/
theorem Written.isMember_or_dot {s : String} {p : Prerelease} {c : Char} (h : Written "" s p)
    (hc : c ∈ s.toList) : Identifier.isMember c = true ∨ c = '.' := by
  cases h with
  | token h => exact .inl (h.members c hc)
  | @numbered token digits n h hn =>
    simp only [String.toList_append, List.mem_append] at hc
    rcases hc with (hc | hc) | hc | hc
    · exact .inl (h.members c hc)
    · exact .inr (List.mem_singleton.1 hc)
    · cases hc
    · have hdigit := hn.members c hc
      exact .inl (by simp [Identifier.isMember, hdigit])

/-- A plus sign in front of an iteration is passed over. -/
theorem parse_signed : ¬∀ s p, parse s = .ok p ↔ Written "" s p := by
  intro h
  have hread : parse "alpha.+5" = .ok ⟨"alpha", some 5⟩ := by decide
  have hmem : '+' ∈ "alpha.+5".toList := by decide
  exact absurd (((h _ _).1 hread).isMember_or_dot hmem) (by decide)

end ReleaseHistory.Version.Prerelease
