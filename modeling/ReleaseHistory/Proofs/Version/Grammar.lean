import ReleaseHistory.Proofs.Text.Digits
import ReleaseHistory.Proofs.Version.Reading

/-!
# The grammar of versions

A version is written as three numbers between dots, then perhaps a hyphen and identifiers between
dots, then perhaps a plus sign and any text. Every text of this form is read and no other is, and
what was read is written back as the text it came from.
-/

namespace ReleaseHistory.Version

/-! ### Identifiers -/

namespace Identifier

/-- The characters of an identifier: one of only digits is a numeral. -/
structure Spelled (cs : List Char) : Prop where
  nonempty : cs ≠ []
  members : ∀ c ∈ cs, isMember c = true
  numeral : (∀ c ∈ cs, Text.isDigit c = true) → Text.Numeral cs

theorem text_of_ofChars {cs : List Char} {i : Identifier} (hmembers : ∀ c ∈ cs, isMember c = true)
    (h : ofChars cs = .ok i) : Spelled cs ∧ i.text.toList = cs := by
  unfold ofChars at h
  split_ifs at h with hempty hdigits hleading
  · have hdigit : ∀ c ∈ cs, Text.isDigit c = true := List.all_eq_true.1 hdigits
    have hnumeral : Text.Numeral cs :=
      ⟨by simpa using hempty, hdigit, by simpa using hleading⟩
    obtain rfl := Except.ok.inj h
    refine ⟨⟨hnumeral.nonempty, hmembers, fun _ => hnumeral⟩, ?_⟩
    rw [text, Nat.toList_repr, Text.toDigits_value hnumeral]
  · obtain rfl := Except.ok.inj h
    refine ⟨⟨by simpa using hempty, hmembers, fun hdigit => absurd ?_ hdigits⟩, ?_⟩
    · exact List.all_eq_true.2 hdigit
    · rw [text, String.toList_ofList]

theorem exists_ofChars {cs : List Char} (h : Spelled cs) : ∃ i, ofChars cs = .ok i := by
  unfold ofChars
  rw [if_neg (by simpa using h.nonempty)]
  split_ifs with hdigits hleading
  · have hnumeral := h.numeral (List.all_eq_true.1 hdigits)
    simp only [Bool.and_eq_true, decide_eq_true_eq] at hleading
    exact absurd (hnumeral.leading hleading.1) hleading.2
  · exact ⟨_, rfl⟩
  · exact ⟨_, rfl⟩

theorem texts_of_mapM {parts : List (List Char)} {ids : List Identifier}
    (hmembers : ∀ part ∈ parts, ∀ c ∈ part, isMember c = true)
    (h : parts.mapM ofChars = .ok ids) :
    (∀ part ∈ parts, Spelled part) ∧ ids.map (fun i => i.text.toList) = parts := by
  induction parts generalizing ids with
  | nil =>
    obtain rfl := Except.pure_eq_ok.1 h
    exact ⟨by simp, rfl⟩
  | cons part parts ih =>
    rw [List.mapM_cons] at h
    obtain ⟨i, hi, h⟩ := Except.bind_eq_ok.1 h
    obtain ⟨rest, hrest, h⟩ := Except.bind_eq_ok.1 h
    obtain rfl := Except.pure_eq_ok.1 h
    obtain ⟨hpart, htext⟩ := text_of_ofChars (hmembers part (List.mem_cons_self ..)) hi
    obtain ⟨hparts, htexts⟩ := ih (fun p hp => hmembers p (List.mem_cons_of_mem part hp)) hrest
    exact ⟨List.forall_mem_cons.2 ⟨hpart, hparts⟩, by rw [List.map_cons, htext, htexts]⟩

theorem exists_mapM {parts : List (List Char)} (h : ∀ part ∈ parts, Spelled part) :
    ∃ ids, parts.mapM ofChars = .ok ids := by
  induction parts with
  | nil => exact ⟨[], rfl⟩
  | cons part parts ih =>
    obtain ⟨hpart, hparts⟩ := List.forall_mem_cons.1 h
    obtain ⟨i, hi⟩ := exists_ofChars hpart
    obtain ⟨ids, hids⟩ := ih hparts
    exact ⟨i :: ids, by rw [List.mapM_cons, hi, hids]; rfl⟩

end Identifier

namespace Core

/-! ### Numbers -/

/-- The digits of one of the three numbers. -/
structure IsNumber (ds : List Char) : Prop where
  numeral : Text.Numeral ds
  bound : Text.value ds ≤ Text.maxWord

theorem IsNumber.plus_not_mem {ds : List Char} (h : IsNumber ds) : '+' ∉ ds := by
  intro hplus
  exact absurd (h.numeral.digits '+' hplus) (by decide)

theorem digits_of_readNumber {part : Part} {cs rest : List Char} {n : Nat}
    (h : readNumber part cs = .ok (n, rest)) :
    cs = Nat.toDigits 10 n ++ rest ∧ IsNumber (Nat.toDigits 10 n) := by
  unfold readNumber at h
  dsimp only at h
  split_ifs at h with hempty hleading hlarge
  · split at h <;> cases h
  · obtain ⟨rfl, rfl⟩ := Prod.mk.inj (Except.ok.inj h)
    have hnumeral : Text.Numeral (cs.takeWhile Text.isDigit) :=
      ⟨by simpa using hempty, fun c hc => List.mem_takeWhile_imp hc, by simpa using hleading⟩
    rw [Text.toDigits_value hnumeral]
    exact ⟨List.takeWhile_append_dropWhile.symm, hnumeral, Nat.le_of_not_lt hlarge⟩

theorem readNumber_append {part : Part} {ds rest : List Char} (h : IsNumber ds)
    (hrest : ∀ c ∈ rest.head?, Text.isDigit c = false) :
    readNumber part (ds ++ rest) = .ok (Text.value ds, rest) := by
  obtain ⟨htake, hdrop⟩ := Text.takeWhile_digits h.numeral.digits hrest
  unfold readNumber
  dsimp only
  rw [htake, hdrop, if_neg (by simpa using h.numeral.nonempty),
    if_neg (by simpa using h.numeral.leading), if_neg (Nat.not_lt.2 h.bound)]

theorem readDot_eq_ok {part : Part} {cs rest : List Char} :
    readDot part cs = .ok rest ↔ cs = '.' :: rest := by
  cases cs with
  | nil => simp [readDot]
  | cons c cs =>
    rw [readDot]
    split_ifs with hc
    · simp [hc]
    · simp [hc]

/-! ### Prereleases -/

theorem isMember_of_mem_intercalate {parts : List (List Char)}
    (h : ∀ part ∈ parts, Identifier.Spelled part) {c : Char} (hc : c ∈ ['.'].intercalate parts) :
    (Identifier.isMember c || c == '.') = true := by
  induction parts with
  | nil => exact absurd hc List.not_mem_nil
  | cons part parts ih =>
    obtain ⟨hpart, hparts⟩ := List.forall_mem_cons.1 h
    have hmember : c ∈ part → (Identifier.isMember c || c == '.') = true := fun hc => by
      rw [hpart.members c hc, Bool.true_or]
    cases parts with
    | nil =>
      rw [List.intercalate_singleton] at hc
      exact hmember hc
    | cons next parts =>
      rw [List.intercalate_cons_cons, List.mem_append, List.mem_append, List.mem_singleton] at hc
      rcases hc with (hc | rfl) | hc
      · exact hmember hc
      · rfl
      · exact ih hparts hc

theorem mapM_of_readPrerelease {cs : List Char} {ids : List Identifier}
    (h : readPrerelease cs = .ok ids) :
    (Text.splitAll '.' cs).mapM Identifier.ofChars = .ok ids ∧
      ∀ part ∈ Text.splitAll '.' cs, ∀ c ∈ part, Identifier.isMember c = true := by
  unfold readPrerelease at h
  dsimp only at h
  obtain ⟨read, hread, h⟩ := Except.bind_eq_ok.1 h
  split at h
  · rename_i hrest
    obtain rfl := Except.ok.inj h
    have hbody : ∀ c ∈ cs, (Identifier.isMember c || c == '.') = true :=
      List.dropWhile_eq_nil_iff.1 hrest
    rw [List.takeWhile_eq_self_iff.2 hbody] at hread
    refine ⟨hread, fun part hpart c hc => ?_⟩
    have hdot : c ≠ '.' := by
      rintro rfl
      exact Text.not_mem_of_mem_splitAll hpart hc
    have hmember := hbody c (Text.mem_of_mem_splitAll hpart hc)
    rwa [beq_eq_false_iff_ne.2 hdot, Bool.or_false] at hmember
  · cases h

theorem texts_of_readPrerelease {cs : List Char} {ids : List Identifier}
    (h : readPrerelease cs = .ok ids) :
    (∀ part ∈ Text.splitAll '.' cs, Identifier.Spelled part) ∧
      ids.map (fun i => i.text.toList) = Text.splitAll '.' cs := by
  obtain ⟨hread, hmembers⟩ := mapM_of_readPrerelease h
  exact Identifier.texts_of_mapM hmembers hread

theorem exists_readPrerelease {parts : List (List Char)} (hne : parts ≠ [])
    (h : ∀ part ∈ parts, Identifier.Spelled part) :
    ∃ ids, readPrerelease (['.'].intercalate parts) = .ok ids := by
  have hdots : ∀ part ∈ parts, '.' ∉ part := by
    intro part hpart hdot
    exact absurd ((h part hpart).members '.' hdot) (by decide)
  have hbody : ∀ c ∈ ['.'].intercalate parts, (Identifier.isMember c || c == '.') = true :=
    fun c hc => isMember_of_mem_intercalate h hc
  obtain ⟨ids, hids⟩ := Identifier.exists_mapM h
  refine ⟨ids, ?_⟩
  unfold readPrerelease
  dsimp only
  rw [List.takeWhile_eq_self_iff.2 hbody, List.dropWhile_eq_nil_iff.2 hbody,
    Text.splitAll_intercalate hne hdots, hids]
  rfl

/-! ### Versions without build metadata -/

/-- The parts of a version as they are written. -/
structure Spelling where
  major : List Char
  minor : List Char
  patch : List Char
  identifiers : List (List Char)

namespace Spelling

/-- A prerelease as it is written: a hyphen, and identifiers with dots between them. -/
def prereleaseChars : List (List Char) → List Char
  | [] => []
  | ids => '-' :: ['.'].intercalate ids

/-- A version as it is written: three numbers with dots between them, and a prerelease. -/
def chars (p : Spelling) : List Char :=
  p.major ++ '.' :: (p.minor ++ '.' :: (p.patch ++ prereleaseChars p.identifiers))

structure WellFormed (p : Spelling) : Prop where
  major : IsNumber p.major
  minor : IsNumber p.minor
  patch : IsNumber p.patch
  identifiers : ∀ cs ∈ p.identifiers, Identifier.Spelled cs

variable {p : Spelling}

theorem prereleaseChars_of_ne_nil {ids : List (List Char)} (h : ids ≠ []) :
    prereleaseChars ids = '-' :: ['.'].intercalate ids := by
  cases ids with
  | nil => exact absurd rfl h
  | cons part parts => rfl

theorem head?_prereleaseChars (ids : List (List Char)) :
    ∀ c ∈ (prereleaseChars ids).head?, Text.isDigit c = false := by
  cases ids with
  | nil => simp [prereleaseChars]
  | cons part parts =>
    rw [prereleaseChars_of_ne_nil (List.cons_ne_nil part parts)]
    simp
    decide

theorem WellFormed.plus_not_mem (h : p.WellFormed) : '+' ∉ p.chars := by
  have hprerelease : '+' ∉ prereleaseChars p.identifiers := by
    by_cases hids : p.identifiers = []
    · rw [hids]
      exact List.not_mem_nil
    · rw [prereleaseChars_of_ne_nil hids, List.mem_cons, not_or]
      refine ⟨by decide, fun hplus => ?_⟩
      exact absurd (isMember_of_mem_intercalate h.identifiers hplus) (by decide)
  simp [chars, h.major.plus_not_mem, h.minor.plus_not_mem, h.patch.plus_not_mem, hprerelease]

end Spelling

def spelling (v : Core) : Spelling :=
  ⟨Nat.toDigits 10 v.major, Nat.toDigits 10 v.minor, Nat.toDigits 10 v.patch,
    v.prerelease.map fun i => i.text.toList⟩

theorem toList_text (v : Core) : v.text.toList = v.spelling.chars := by
  have hnumber : ∀ n : Nat, n.repr.toList = Nat.toDigits 10 n := fun n => Nat.toList_repr
  have hprerelease : v.prereleaseText.toList = ['.'].intercalate v.spelling.identifiers := by
    rw [prereleaseText, String.toList_intercalate, List.map_map]
    rfl
  have hnumbers : s!"{v.major}.{v.minor}.{v.patch}".toList =
      v.spelling.major ++ '.' :: (v.spelling.minor ++ '.' :: v.spelling.patch) := by
    simp [spelling, hnumber, toString]
  unfold text
  dsimp only
  split
  · rename_i hempty
    have hids : v.spelling.identifiers = [] := by
      rw [spelling, List.isEmpty_iff.1 hempty]
      rfl
    rw [Spelling.chars, hids, Spelling.prereleaseChars, List.append_nil]
    exact hnumbers
  · rename_i hempty
    have hids : v.spelling.identifiers ≠ [] := by simpa [spelling] using hempty
    rw [Spelling.chars, Spelling.prereleaseChars_of_ne_nil hids, ← hprerelease, String.toList_append,
      String.toList_append, hnumbers]
    simp

/-- What is read as a version is well formed, and is written back as it was. -/
theorem spelling_of_ofChars {cs : List Char} {v : Core} (h : ofChars cs = .ok v) :
    v.spelling.WellFormed ∧ v.spelling.chars = cs := by
  obtain ⟨afterMajor, beforeMinor, afterMinor, beforePatch, rest, hmajor, hfirstDot, hminor,
    hsecondDot, hpatch, hrest⟩ := reads_of_ofChars h
  obtain ⟨hmajorChars, hmajorNumber⟩ := digits_of_readNumber hmajor
  obtain ⟨hminorChars, hminorNumber⟩ := digits_of_readNumber hminor
  obtain ⟨hpatchChars, hpatchNumber⟩ := digits_of_readNumber hpatch
  have hfirst : afterMajor = '.' :: beforeMinor := readDot_eq_ok.1 hfirstDot
  have hsecond : afterMinor = '.' :: beforePatch := readDot_eq_ok.1 hsecondDot
  -- whatever the rest was read as, it is enough that its identifiers are written as the rest
  have hends : (∀ cs ∈ v.spelling.identifiers, Identifier.Spelled cs) ∧
      Spelling.prereleaseChars v.spelling.identifiers = rest := by
    rcases hrest with ⟨rfl, hids⟩ | ⟨more, rfl, hids⟩
    · simp [spelling, hids, Spelling.prereleaseChars]
    · obtain ⟨hspelled, htexts⟩ := texts_of_readPrerelease hids
      have hidentifiers : v.spelling.identifiers = Text.splitAll '.' more := htexts
      rw [hidentifiers, Spelling.prereleaseChars_of_ne_nil (Text.splitAll_ne_nil '.' more),
        Text.intercalate_splitAll]
      exact ⟨hspelled, rfl⟩
  refine ⟨⟨hmajorNumber, hminorNumber, hpatchNumber, hends.1⟩, ?_⟩
  rw [Spelling.chars, hends.2, hmajorChars, hfirst, hminorChars, hsecond, hpatchChars]
  rfl

theorem exists_ofChars {p : Spelling} (h : p.WellFormed) : ∃ v, ofChars p.chars = .ok v := by
  have hne : p.chars ≠ [] := by simp [Spelling.chars]
  have hdot : ∀ (rest : List Char), ∀ c ∈ ('.' :: rest).head?, Text.isDigit c = false := by
    intro rest c hc
    obtain rfl := Option.some.inj hc
    decide
  have hfirst : ∀ rest, readNumber .major (p.major ++ '.' :: rest) =
      .ok (Text.value p.major, '.' :: rest) := fun rest => readNumber_append h.major (hdot rest)
  have hsecond : ∀ rest, readNumber .minor (p.minor ++ '.' :: rest) =
      .ok (Text.value p.minor, '.' :: rest) := fun rest => readNumber_append h.minor (hdot rest)
  have hthird : readNumber .patch (p.patch ++ Spelling.prereleaseChars p.identifiers) =
      .ok (Text.value p.patch, Spelling.prereleaseChars p.identifiers) :=
    readNumber_append h.patch (Spelling.head?_prereleaseChars p.identifiers)
  have hafter : ∀ part rest, readDot part ('.' :: rest) = .ok rest :=
    fun part rest => readDot_eq_ok.2 rfl
  unfold ofChars
  rw [if_neg (by simpa using hne), Spelling.chars]
  simp only [hfirst, hafter, hsecond, hthird, Except.ok_bind]
  by_cases hids : p.identifiers = []
  · rw [hids]
    exact ⟨_, rfl⟩
  · obtain ⟨ids, hread⟩ := exists_readPrerelease hids h.identifiers
    rw [Spelling.prereleaseChars_of_ne_nil hids]
    simp only [hread]
    exact ⟨_, rfl⟩

end Core

/-! ### Release versions -/

/-- A text that is a version without build metadata. -/
def IsCore (s : String) : Prop := ∃ p : Core.Spelling, p.WellFormed ∧ s.toList = p.chars

/-- A text that is a release version. Its build metadata is any text that is not empty. -/
inductive IsRelease : String → Prop
  | plain {core : String} : IsCore core → IsRelease core
  | built {core build : String} : IsCore core → build ≠ "" → IsRelease (core ++ "+" ++ build)

theorem text_of_parseCore {s : String} {v : Core} (h : Core.parse s = .ok v) :
    IsCore s ∧ v.text = s := by
  obtain ⟨hspelled, hchars⟩ := Core.spelling_of_ofChars h
  refine ⟨⟨v.spelling, hspelled, hchars.symm⟩, ?_⟩
  rw [← String.toList_inj, Core.toList_text, hchars]

theorem IsCore.exists_parse {s : String} (h : IsCore s) : ∃ v, Core.parse s = .ok v := by
  obtain ⟨p, hp, hs⟩ := h
  rw [Core.parse, hs]
  exact Core.exists_ofChars hp

theorem IsCore.plus_not_mem {s : String} (h : IsCore s) : '+' ∉ s.toList := by
  obtain ⟨p, hp, hs⟩ := h
  rw [hs]
  exact hp.plus_not_mem

namespace Release

/-- What is read as a release version is one, and is written back as it was. -/
theorem text_of_parse {s : String} {v : Release} (h : parse s = .ok v) :
    IsRelease s ∧ v.text = s := by
  unfold parse at h
  -- the first plus sign ends the core, since no core has one; further ones belong to the build
  by_cases hplus : '+' ∈ s.toList
  · obtain ⟨core, build, hcore, rfl⟩ := Text.exists_eq_append_of_mem hplus
    rw [Text.splitOnce_append hcore] at h
    dsimp only at h
    split at h
    · cases h
    · rename_i hbuild
      split at h
      · rename_i w hw
        obtain rfl := Except.ok.inj h
        obtain ⟨hspelled, htext⟩ := text_of_parseCore hw
        refine ⟨.built hspelled fun hempty => hbuild (by rw [hempty]), ?_⟩
        rw [text, htext]
        rfl
      · cases h
  · rw [Text.splitOnce_of_not_mem hplus] at h
    dsimp only at h
    split at h
    · rename_i hnone
      cases hnone
    · split at h
      · rename_i w hw
        obtain rfl := Except.ok.inj h
        obtain ⟨hspelled, htext⟩ := text_of_parseCore hw
        exact ⟨.plain hspelled, htext⟩
      · cases h

theorem exists_parse {s : String} (h : IsRelease s) : ∃ v, parse s = .ok v := by
  cases h with
  | plain hcore =>
    obtain ⟨v, hv⟩ := hcore.exists_parse
    refine ⟨⟨v, none⟩, ?_⟩
    rw [parse, Text.splitOnce_of_not_mem hcore.plus_not_mem]
    simp only [hv, reduceCtorEq, if_false]
  | @built core build hcore hbuild =>
    obtain ⟨v, hv⟩ := hcore.exists_parse
    have hsplit : Text.splitOnce '+' (core ++ "+" ++ build) = (core, some build) :=
      Text.splitOnce_append hcore.plus_not_mem
    refine ⟨⟨v, some build⟩, ?_⟩
    rw [parse, hsplit]
    simp only [hv, Option.some.injEq, hbuild, if_false]

/-- Exactly the texts of the grammar are read as release versions. Each is what its version is
written as, so no two of them have the same version. -/
theorem parse_iff_grammar (s : String) :
    ((∃ v, parse s = .ok v) ↔ IsRelease s) ∧
      ∀ v, parse s = .ok v → v.text = s ∧ ∀ t, parse t = .ok v → t = s := by
  refine ⟨⟨?_, exists_parse⟩, ?_⟩
  · rintro ⟨v, hv⟩
    exact (text_of_parse hv).1
  · intro v hv
    have hs : v.text = s := (text_of_parse hv).2
    refine ⟨hs, fun t ht => ?_⟩
    rw [← hs]
    exact (text_of_parse ht).2.symm

/-- Build metadata can hold the name of a branch. -/
theorem parse_of_grammar_branch :
    ∃ v, parse "1.1.0-rev.1+feat/feature-2" = .ok v ∧ IsRelease "1.1.0-rev.1+feat/feature-2" ∧
      v.text = "1.1.0-rev.1+feat/feature-2" := by
  have hparse : parse "1.1.0-rev.1+feat/feature-2" =
      .ok ⟨⟨1, 1, 0, [.word "rev", .numeric 1]⟩, some "feat/feature-2"⟩ := by decide +kernel
  obtain ⟨hgrammar, hwritten⟩ := parse_iff_grammar "1.1.0-rev.1+feat/feature-2"
  exact ⟨_, hparse, hgrammar.1 ⟨_, hparse⟩, (hwritten _ hparse).1⟩

end Release

end ReleaseHistory.Version
