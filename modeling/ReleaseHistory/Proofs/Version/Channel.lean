import ReleaseHistory.Proofs.Version.Grammar
import ReleaseHistory.Proofs.Version.Precedence
import ReleaseHistory.Proofs.Version.Prerelease

/-!
# Versions of one channel

The prerelease of a version with a channel is the token of the channel, or the token and a number,
since a further identifier would leave a dot in the iteration. An identifier that was read is known
from how it is written. So two versions of one channel begin their prereleases with the same
identifier, and where their three numbers agree, the iteration decides which comes first.
-/

namespace ReleaseHistory.Version

/-! ### Identifiers that were read -/

namespace Identifier

/-- An identifier as reading gives it: a numeral is a number and not a word. -/
structure Canonical (i : Identifier) : Prop where
  spelled : Spelled i.text.toList
  read : ofChars i.text.toList = .ok i

theorem canonical_of_ofChars {cs : List Char} {i : Identifier}
    (hmembers : ∀ c ∈ cs, isMember c = true) (h : ofChars cs = .ok i) : Canonical i := by
  obtain ⟨hspelled, htext⟩ := text_of_ofChars hmembers h
  rw [← htext] at hspelled h
  exact ⟨hspelled, h⟩

theorem canonical_of_mapM {parts : List (List Char)} {ids : List Identifier}
    (hmembers : ∀ part ∈ parts, ∀ c ∈ part, isMember c = true)
    (h : parts.mapM ofChars = .ok ids) : ∀ i ∈ ids, Canonical i := by
  induction parts generalizing ids with
  | nil =>
    obtain rfl := Except.pure_eq_ok.1 h
    simp
  | cons part parts ih =>
    obtain ⟨hpart, hparts⟩ := List.forall_mem_cons.1 hmembers
    rw [List.mapM_cons] at h
    obtain ⟨i, hi, h⟩ := Except.bind_eq_ok.1 h
    obtain ⟨rest, hrest, h⟩ := Except.bind_eq_ok.1 h
    obtain rfl := Except.pure_eq_ok.1 h
    exact List.forall_mem_cons.2 ⟨canonical_of_ofChars hpart hi, ih hparts hrest⟩

namespace Canonical

variable {i j : Identifier}

theorem eq_of_text_eq (hi : Canonical i) (hj : Canonical j) (h : i.text = j.text) : i = j := by
  have hread := hi.read
  rw [h, hj.read] at hread
  exact (Except.ok.inj hread).symm

theorem not_mem (h : Canonical i) {c : Char} (hc : isMember c = false) : c ∉ i.text.toList := by
  intro hmem
  rw [h.spelled.members c hmem] at hc
  cases hc

theorem eq_numeric (h : Canonical i) {n : Nat} (hn : Text.word? i.text = some n) :
    i = numeric n := by
  obtain ⟨digits, hs | hs, hne, hdigits, rfl, -⟩ := Text.word?_eq_some.1 hn
  · have hread := h.read
    have hnumeral : Text.Numeral digits := hs ▸ h.spelled.numeral (by rwa [hs])
    rw [hs, ofChars, if_neg (by simpa using hne), if_pos (List.all_eq_true.2 hdigits),
      if_neg (by simpa using hnumeral.leading)] at hread
    exact (Except.ok.inj hread).symm
  · -- an iteration may have a plus sign, an identifier may not
    have hplus : '+' ∉ i.text.toList := h.not_mem (by decide)
    rw [hs] at hplus
    exact absurd (List.mem_cons_self ..) hplus

end Canonical

end Identifier

namespace Core

theorem canonical_of_parse {s : String} {v : Core} (h : parse s = .ok v) :
    ∀ i ∈ v.prerelease, i.Canonical := by
  obtain ⟨_, _, _, _, _, -, -, -, -, -, ⟨-, hnone⟩ | ⟨more, -, hmore⟩⟩ := reads_of_ofChars h
  · simp [hnone]
  · obtain ⟨hread, hmembers⟩ := mapM_of_readPrerelease hmore
    exact Identifier.canonical_of_mapM hmembers hread

end Core

/-! ### The prerelease of a channel -/

namespace Prerelease

/-- The number of an iteration, if there is one, as it follows the token. -/
def suffix (p : Prerelease) : List Identifier := (p.iteration.map Identifier.numeric).toList

theorem identifiers_of_parse {ids : List Identifier} {p : Prerelease} (hne : ids ≠ [])
    (hids : ∀ i ∈ ids, i.Canonical)
    (h : parse (String.intercalate "." (ids.map Identifier.text)) = .ok p) :
    ∃ i, i.Canonical ∧ ids = i :: p.suffix ∧ i.text = p.token := by
  obtain ⟨i, others, rfl⟩ := List.exists_cons_of_ne_nil hne
  obtain ⟨hi, hothers⟩ := List.forall_mem_cons.1 hids
  have hdot : '.' ∉ i.text.toList := hi.not_mem (by decide)
  rw [List.map_cons] at h
  cases others with
  | nil =>
    rw [List.map_nil, String.intercalate_singleton, parse_of_not_mem hdot] at h
    obtain ⟨-, rfl⟩ := h
    exact ⟨i, hi, rfl, rfl⟩
  | cons j rest =>
    rw [List.map_cons, String.intercalate_cons_cons, parse_append hdot] at h
    obtain ⟨-, n, hn, rfl⟩ := h
    cases rest with
    | nil =>
      rw [List.map_nil, String.intercalate_singleton] at hn
      obtain rfl : j = .numeric n := (hothers j (List.mem_singleton.2 rfl)).eq_numeric hn
      exact ⟨i, hi, rfl, rfl⟩
    | cons k rest =>
      -- a third identifier leaves a dot in what is read as the iteration
      rw [List.map_cons, String.intercalate_cons_cons] at hn
      exact absurd (Text.isDigit_of_word? (c := '.') hn (by simp)) (by decide)

theorem text_eq_intercalate {i : Identifier} {p : Prerelease} (h : i.text = p.token) :
    p.text = String.intercalate "." ((i :: p.suffix).map Identifier.text) := by
  obtain ⟨token, iteration⟩ := p
  obtain rfl : i.text = token := h
  cases iteration with
  | none => simp [text, suffix]
  | some n =>
    have hn : (Identifier.numeric n).text = n.repr := rfl
    simp [text, suffix, hn, toString]

end Prerelease

namespace Core

theorem prereleasePrecedence_suffix (i : Identifier) (p q : Prerelease) :
    prereleasePrecedence (i :: p.suffix) (i :: q.suffix) = compare p.iteration q.iteration := by
  have hself : i.precedence i = .eq := Std.ReflCmp.compare_self
  rw [prereleasePrecedence_cons, List.compareLex_cons_cons, hself, Ordering.eq_then,
    ← identifiersPrecedence_eq, Prerelease.suffix, Prerelease.suffix]
  cases p.iteration with
  | none => cases q.iteration <;> rfl
  | some m =>
    cases q.iteration with
    | none => rfl
    | some n => exact Ordering.then_eq

end Core

namespace Release

/-- How often the channel of a version has been released for its numbers, if the version says so. -/
def iteration (v : Release) : Option Nat := v.prerelease.toOption.join.bind (·.iteration)

/-- Versions compared by their numbers and, where these agree, by their iterations, of which none
comes before any. -/
def precedenceInChannel : Release → Release → Ordering :=
  compareLex (compareOn (·.core.major)) (compareLex (compareOn (·.core.minor))
    (compareLex (compareOn (·.core.patch)) (compareOn iteration)))

variable {s t : String} {v w : Release}

theorem prerelease_of_none (h : v.prerelease = .ok none) : v.core.prerelease = [] := by
  unfold prerelease at h
  split at h
  · rename_i hempty
    exact List.isEmpty_iff.1 hempty
  · obtain ⟨p, -, hp⟩ := Except.map_eq_ok.1 h
    cases hp

theorem prerelease_of_some {p : Prerelease} (hv : parse s = .ok v)
    (h : v.prerelease = .ok (some p)) :
    ∃ i, i.Canonical ∧ v.core.prerelease = i :: p.suffix ∧ i.text = p.token := by
  unfold prerelease at h
  split at h
  · cases h
  · rename_i hne
    obtain ⟨q, hq, hp⟩ := Except.map_eq_ok.1 h
    obtain rfl := Option.some.inj hp
    have hids := Core.canonical_of_parse (core_of_parse hv)
    exact Prerelease.identifiers_of_parse (by simpa using hne) hids hq

theorem iteration_of_prerelease {p : Option Prerelease} (h : v.prerelease = .ok p) :
    v.iteration = p.bind (·.iteration) := by
  rw [iteration, h]
  rfl

/-- The prereleases of two versions of one channel stand to each other as their iterations do. -/
theorem prereleasePrecedence_eq_compare {channel : Option String} (hv : parse s = .ok v)
    (hw : parse t = .ok w) (h : v.channel = .ok channel) (h' : w.channel = .ok channel) :
    Core.prereleasePrecedence v.core.prerelease w.core.prerelease =
      compare v.iteration w.iteration := by
  obtain ⟨p, hp, rfl⟩ := Except.map_eq_ok.1 h
  obtain ⟨q, hq, hchannel⟩ := Except.map_eq_ok.1 h'
  rw [iteration_of_prerelease hp, iteration_of_prerelease hq]
  cases p with
  | none =>
    cases q with
    | none =>
      rw [prerelease_of_none hp, prerelease_of_none hq]
      rfl
    | some q => cases hchannel
  | some p =>
    cases q with
    | none => cases hchannel
    | some q =>
      obtain ⟨i, hi, hids, hitext⟩ := prerelease_of_some hv hp
      obtain ⟨j, hj, hids', hjtext⟩ := prerelease_of_some hw hq
      have htoken : p.token = q.token := Option.some.inj hchannel
      obtain rfl : i = j := hi.eq_of_text_eq hj (by rw [hitext, hjtext, htoken])
      rw [hids, hids', Core.prereleasePrecedence_suffix]
      rfl

theorem coreText_of_parse (hv : parse s = .ok v) : v.core.text = (Text.splitOnce '+' s).1 :=
  (text_of_parseCore (core_of_parse hv)).2

/-- The prerelease of a version is written as it stands in the text of the version. Of two versions
of one channel, the one of higher precedence is that with the greater numbers or, where these agree,
the greater iteration, and neither precedes the other only if they are the same up to build
metadata. -/
theorem precedence_eq_precedenceInChannel (hv : parse s = .ok v) (hw : parse t = .ok w) :
    (∀ p, v.prerelease = .ok (some p) → p.text = v.core.prereleaseText ∧
        (Text.splitOnce '+' s).1 = s!"{v.core.major}.{v.core.minor}.{v.core.patch}-{p.text}") ∧
      ∀ channel, v.channel = .ok channel → w.channel = .ok channel →
        v.precedence w = v.precedenceInChannel w ∧
          (v.precedence w = .eq ↔ (Text.splitOnce '+' s).1 = (Text.splitOnce '+' t).1) := by
  refine ⟨fun p hp => ?_, fun channel h h' => ⟨?_, ?_⟩⟩
  · obtain ⟨i, -, hids, htoken⟩ := prerelease_of_some hv hp
    have htext : p.text = v.core.prereleaseText := by
      rw [Core.prereleaseText, hids, Prerelease.text_eq_intercalate htoken]
    refine ⟨htext, ?_⟩
    rw [← coreText_of_parse hv, Core.text, htext, hids]
    simp [toString, String.append_assoc]
  · rw [precedence, Core.precedence, prereleasePrecedence_eq_compare hv hw h h']
    rfl
  · rw [← coreText_of_parse hv, ← coreText_of_parse hw]
    constructor
    · intro heq
      rw [show v.core = w.core from Std.LawfulEqCmp.eq_of_compare heq]
    · intro heq
      have hcore : v.core = w.core := by
        have hread := core_of_parse hv
        rw [← coreText_of_parse hv, heq, coreText_of_parse hw, core_of_parse hw] at hread
        exact (Except.ok.inj hread).symm
      rw [precedence, hcore]
      exact Std.ReflCmp.compare_self

/-- Iterations are compared as numbers, and not by their digits. -/
theorem precedence_eq_precedenceInChannel_tenth :
    ∃ v w, parse "1.0.1-alpha.9+feat/one" = .ok v ∧ parse "1.0.1-alpha.10" = .ok w ∧
      v.channel = .ok (some "alpha") ∧ w.channel = .ok (some "alpha") ∧
      v.prerelease = .ok (some ⟨"alpha", some 9⟩) ∧ v.core.prereleaseText = "alpha.9" ∧
      v.precedence w = .lt := by
  have hv : parse "1.0.1-alpha.9+feat/one" =
      .ok ⟨⟨1, 0, 1, [.word "alpha", .numeric 9]⟩, some "feat/one"⟩ := by decide +kernel
  have hw : parse "1.0.1-alpha.10" = .ok ⟨⟨1, 0, 1, [.word "alpha", .numeric 10]⟩, none⟩ := by
    decide +kernel
  have hprerelease : prerelease ⟨⟨1, 0, 1, [.word "alpha", .numeric 9]⟩, some "feat/one"⟩ =
      .ok (some ⟨"alpha", some 9⟩) := by decide +kernel
  have hchannel : channel ⟨⟨1, 0, 1, [.word "alpha", .numeric 9]⟩, some "feat/one"⟩ =
      .ok (some "alpha") := by decide +kernel
  have hchannel' : channel ⟨⟨1, 0, 1, [.word "alpha", .numeric 10]⟩, none⟩ =
      .ok (some "alpha") := by decide +kernel
  obtain ⟨htext, hprecedence⟩ := precedence_eq_precedenceInChannel hv hw
  refine ⟨_, _, hv, hw, hchannel, hchannel', hprerelease, (htext _ hprerelease).1.symm, ?_⟩
  rw [(hprecedence _ hchannel hchannel').1]
  decide +kernel

end Release

end ReleaseHistory.Version
