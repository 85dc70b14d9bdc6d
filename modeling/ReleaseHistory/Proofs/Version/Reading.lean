import Mathlib.Data.List.TakeWhile
import Mathlib.Tactic.SplitIfs
import ReleaseHistory.Proofs.Operation
import ReleaseHistory.Proofs.Text.Split
import ReleaseHistory.Version.Release

/-!
# How a version begins

A text that is read as a version begins with the digits of a number and a dot.
-/

namespace ReleaseHistory.Version

theorem Core.readNumber_eq_ok {part : Part} {cs rest : List Char} {n : Nat}
    (h : readNumber part cs = .ok (n, rest)) : rest = cs.dropWhile Text.isDigit := by
  unfold readNumber at h
  dsimp only at h
  split_ifs at h
  · split at h <;> cases h
  · cases h
    rfl

/-- What is read one after the other when a version is read: three numbers with dots between them,
and after them nothing or a prerelease. -/
theorem Core.reads_of_ofChars {cs : List Char} {v : Core} (h : ofChars cs = .ok v) :
    ∃ afterMajor beforeMinor afterMinor beforePatch rest,
      readNumber .major cs = .ok (v.major, afterMajor) ∧
        readDot .major afterMajor = .ok beforeMinor ∧
        readNumber .minor beforeMinor = .ok (v.minor, afterMinor) ∧
        readDot .minor afterMinor = .ok beforePatch ∧
        readNumber .patch beforePatch = .ok (v.patch, rest) ∧
        (rest = [] ∧ v.prerelease = [] ∨
          ∃ more, rest = '-' :: more ∧ readPrerelease more = .ok v.prerelease) := by
  unfold ofChars at h
  dsimp only at h
  split at h
  · cases h
  · obtain ⟨⟨major, afterMajor⟩, hmajor, h⟩ := Except.bind_eq_ok.1 h
    obtain ⟨beforeMinor, hfirstDot, h⟩ := Except.bind_eq_ok.1 h
    obtain ⟨⟨minor, afterMinor⟩, hminor, h⟩ := Except.bind_eq_ok.1 h
    obtain ⟨beforePatch, hsecondDot, h⟩ := Except.bind_eq_ok.1 h
    obtain ⟨⟨patch, rest⟩, hpatch, h⟩ := Except.bind_eq_ok.1 h
    refine ⟨afterMajor, beforeMinor, afterMinor, beforePatch, rest, ?_⟩
    split at h
    · rename_i hrest
      obtain rfl := Except.pure_eq_ok.1 h
      exact ⟨hmajor, hfirstDot, hminor, hsecondDot, hpatch, .inl ⟨hrest, rfl⟩⟩
    · rename_i more hrest
      obtain ⟨ids, hids, h⟩ := Except.bind_eq_ok.1 h
      obtain rfl := Except.pure_eq_ok.1 h
      exact ⟨hmajor, hfirstDot, hminor, hsecondDot, hpatch, .inr ⟨more, hrest, hids⟩⟩
    · cases h

theorem Core.exists_digits {cs : List Char} {v : Core} (h : ofChars cs = .ok v) :
    ∃ digits rest, cs = digits ++ '.' :: rest ∧ ∀ c ∈ digits, Text.isDigit c = true := by
  obtain ⟨more, rest, -, -, -, hnumber, hdot, -⟩ := reads_of_ofChars h
  obtain rfl := readNumber_eq_ok hnumber
  refine ⟨cs.takeWhile Text.isDigit, rest, ?_, fun c hc => List.mem_takeWhile_imp hc⟩
  unfold readDot at hdot
  split at hdot
  · cases hdot
  · rename_i c after hmore
    split at hdot
    · rename_i hc
      cases hdot
      rw [← hc, ← hmore, List.takeWhile_append_dropWhile]
    · cases hdot

/-- The core of a release version is read from what comes before the first plus sign. -/
theorem Release.core_of_parse {s : String} {v : Release} (h : parse s = .ok v) :
    Core.parse (Text.splitOnce '+' s).1 = .ok v.core := by
  unfold parse at h
  dsimp only at h
  split at h
  · cases h
  · split at h
    · rename_i core hcore
      obtain rfl := Except.ok.inj h
      exact hcore
    · cases h

theorem Release.exists_digits {version : String} {v : Release}
    (h : parse version = .ok v) :
    ∃ digits rest, version.toList = digits ++ '.' :: rest ∧ ∀ c ∈ digits, Text.isDigit c = true := by
  have hcore : Core.ofChars (Text.splitAtFirst '+' version.toList).1 = .ok v.core := by
    have hparse := core_of_parse h
    rwa [Core.parse, Text.splitOnce, String.toList_ofList] at hparse
  obtain ⟨digits, rest, hbegin, hdigits⟩ := Core.exists_digits hcore
  obtain ⟨metadata, hmetadata⟩ := Text.splitAtFirst_prefix '+' version.toList
  refine ⟨digits, rest ++ metadata, ?_, hdigits⟩
  rw [← hmetadata, hbegin, List.append_assoc, List.cons_append]

end ReleaseHistory.Version
