import ReleaseHistory.BuildSettings
import ReleaseHistory.Proofs.Git.Object
import ReleaseHistory.Scenario.GitFlow

/-!
# What a build hash tells apart

The bytes of a build hash determine the fingerprint of the settings, whatever the sources are. The
fingerprint always tells conventions and the mask apart. It tells identities, starts and tag patterns
apart as long as no sign that ends one of them stands in it, which holds of every identity and of
every time that can be used. Only an absent tag pattern and an empty one are written alike, although
nothing can be built with the second.
-/

namespace ReleaseHistory

namespace BuildHash

theorem text_eq_of_input_eq {sources : List (String × String)} {name text text' : String}
    (h : input (sources ++ [(name, text)]) = input (sources ++ [(name, text')])) : text = text' := by
  simp only [input, List.flatMap_append, List.append_cancel_left_eq, List.flatMap_singleton,
    frame, List.append_cancel_right_eq] at h
  exact Git.eq_of_toUTF8_toList h

end BuildHash

namespace Convention

theorem name_injective : Function.Injective name := by
  intro c d h
  have hfound : ofName? c.name = ofName? d.name := congrArg ofName? h
  rw [ofName?_name, ofName?_name] at hfound
  exact Option.some.inj hfound

theorem newline_not_mem_name (c : Convention) : '\n' ∉ c.name.toList := by
  cases c <;> decide

end Convention

namespace BuildSettings

/-! ### The lines of a fingerprint -/

/-- The end of a fingerprint, after the tag pattern. -/
def maskLine (mask : Bool) : List Char :=
  '\n' :: ("mask_initial_release=".toList ++ (if mask then "true" else "false").toList ++ ['\n'])

theorem maskLine_inj {a b : List Char} {m n : Bool} (h : a ++ maskLine m = b ++ maskLine n) :
    a = b ∧ m = n := by
  have hend : (a ++ maskLine m).reverse.take 3 = (b ++ maskLine n).reverse.take 3 := by rw [h]
  have hlast : ∀ (cs : List Char) (k : Bool),
      (cs ++ maskLine k).reverse.take 3 = (maskLine k).reverse.take 3 := by
    intro cs k
    rw [List.reverse_append, List.take_append_of_le_length]
    cases k <;> decide
  rw [hlast, hlast] at hend
  have hmask : m = n := by
    clear h
    revert m n
    decide
  rw [hmask] at h
  exact ⟨List.append_cancel_right h, hmask⟩

theorem fingerprint_eq (s : BuildSettings) (c : Convention) :
    s.fingerprint c = "convention=" ++ c.name ++ "\n" ++ ("author=" ++ s.identity.name ++ " <" ++
      s.identity.email ++ ">\n") ++ ("stable_now=" ++ s.start ++ "\n") ++
      ("tag_format=" ++ s.tagPattern.getD "" ++ "\n") ++
      ("mask_initial_release=" ++ (if s.maskInitialRelease then "true" else "false") ++ "\n") :=
  rfl

theorem toList_fingerprint (s : BuildSettings) (c : Convention) :
    (s.fingerprint c).toList =
      "convention=".toList ++ (c.name.toList ++ '\n' :: ("author=".toList ++
        (s.identity.name.toList ++ [' '] ++ '<' :: (s.identity.email.toList ++ '>' ::
          '\n' :: ("stable_now=".toList ++ (s.start.toList ++ '\n' :: ("tag_format=".toList ++
            ((s.tagPattern.getD "").toList ++ maskLine s.maskInitialRelease)))))))) := by
  have hline : "\n".toList = ['\n'] := by decide
  have hopen : " <".toList = [' ', '<'] := by decide
  have hclose : ">\n".toList = ['>', '\n'] := by decide
  rw [fingerprint_eq, maskLine]
  simp only [String.toList_append, hline, hopen, hclose, List.append_assoc, List.cons_append,
    List.nil_append]

/-- No sign that ends a field in a fingerprint stands in that field. -/
structure Separable (s : BuildSettings) : Prop where
  name : '<' ∉ s.identity.name.toList
  email : '>' ∉ s.identity.email.toList
  start : '\n' ∉ s.start.toList

theorem separable_of_usable {s : BuildSettings} (hname : Git.Signature.isUsable s.identity.name = true)
    (hemail : Git.Signature.isUsable s.identity.email = true) (hstart : '\n' ∉ s.start.toList) :
    s.Separable where
  name := Git.Signature.notMem_of_isUsable hname (.inl rfl)
  email := Git.Signature.notMem_of_isUsable hemail (.inr (.inl rfl))
  start := hstart

variable {a b : BuildSettings} {c d : Convention}

/-- Settings of one fingerprint agree, but for an absent tag pattern, which counts as an empty one. -/
theorem fingerprint_eq_iff (ha : a.Separable) (hb : b.Separable) :
    a.fingerprint c = b.fingerprint d ↔ c = d ∧ a.identity = b.identity ∧ a.start = b.start ∧
      a.tagPattern.getD "" = b.tagPattern.getD "" ∧ a.maskInitialRelease = b.maskInitialRelease := by
  constructor
  · intro h
    have hlines := congrArg String.toList h
    rw [toList_fingerprint, toList_fingerprint, List.append_cancel_left_eq] at hlines
    obtain ⟨hconvention, hlines⟩ := Text.eq_of_append_separator c.newline_not_mem_name
      d.newline_not_mem_name hlines
    rw [List.append_cancel_left_eq] at hlines
    have hblank : ∀ {cs : List Char}, '<' ∉ cs → '<' ∉ cs ++ [' '] := by
      intro cs hcs
      simp [hcs]
    obtain ⟨hname, hlines⟩ :=
      Text.eq_of_append_separator (hblank ha.name) (hblank hb.name) hlines
    obtain ⟨hemail, hlines⟩ := Text.eq_of_append_separator ha.email hb.email hlines
    rw [List.cons_inj_right, List.append_cancel_left_eq] at hlines
    obtain ⟨hstart, hlines⟩ := Text.eq_of_append_separator ha.start hb.start hlines
    rw [List.append_cancel_left_eq] at hlines
    obtain ⟨htags, hmask⟩ := maskLine_inj hlines
    have hidentity : a.identity = b.identity := by
      rw [Git.Identity.mk.injEq]
      exact ⟨String.toList_injective (List.append_cancel_right hname), String.toList_injective hemail⟩
    exact ⟨Convention.name_injective (String.toList_injective hconvention), hidentity,
      String.toList_injective hstart, String.toList_injective htags, hmask⟩
  · rintro ⟨rfl, hidentity, hstart, htags, hmask⟩
    rw [fingerprint_eq, fingerprint_eq, hidentity, hstart, htags, hmask]

end BuildSettings

namespace Scenario

variable (s : Scenario) {c d : Convention} {a b : BuildSettings}

def hashedBytes (c : Convention) (settings : BuildSettings) : List UInt8 :=
  BuildHash.input (s.sources ++ [(BuildSettings.sourceName, settings.fingerprint c)])

theorem buildHash_eq (c : Convention) (settings : BuildSettings) :
    s.buildHash c settings = Text.hexOfBytes (Digest.Blake3.digest (s.hashedBytes c settings)) :=
  rfl

/-- The bytes of a build hash tell conventions and settings apart, but for an absent tag pattern,
which counts as an empty one. -/
theorem hashedBytes_eq_iff (ha : a.Separable) (hb : b.Separable) :
    s.hashedBytes c a = s.hashedBytes d b ↔ c = d ∧ a.identity = b.identity ∧ a.start = b.start ∧
      a.tagPattern.getD "" = b.tagPattern.getD "" ∧ a.maskInitialRelease = b.maskInitialRelease := by
  rw [← BuildSettings.fingerprint_eq_iff ha hb]
  constructor
  · exact BuildHash.text_eq_of_input_eq
  · intro h
    rw [hashedBytes, hashedBytes, h]

/-- The settings where nothing is chosen but the tag pattern. -/
def withPattern (pattern : Option String) : BuildSettings := 
  ⟨.default, Time.Clock.defaultStart, pattern, false⟩

theorem separable_withPattern (pattern : Option String) : (withPattern pattern).Separable := by
  have hname : Git.Signature.isUsable Git.Identity.default.name = true := by decide
  have hemail : Git.Signature.isUsable Git.Identity.default.email = true := by decide
  have hstart : '\n' ∉ Time.Clock.defaultStart.toList := by decide
  exact BuildSettings.separable_of_usable hname hemail hstart

/-- Another tag pattern makes other bytes. -/
theorem hashedBytes_ne_withPattern :
    (withPattern (some "release-")).Separable ∧ (withPattern none).Separable ∧
      (GitFlow.scenario id).hashedBytes .emoji (withPattern (some "release-")) ≠
        (GitFlow.scenario id).hashedBytes .emoji (withPattern none) := by
  refine ⟨separable_withPattern _, separable_withPattern _, fun h => ?_⟩
  obtain ⟨-, -, -, htags, -⟩ := ((GitFlow.scenario id).hashedBytes_eq_iff
    (separable_withPattern _) (separable_withPattern _)).1 h
  exact absurd htags (by decide)

/-- An absent tag pattern gives the bytes of an empty one, with which nothing can be built. -/
theorem hashedBytes_emptyPattern :
    ¬∀ (s : Scenario) (c d : Convention) (a b : BuildSettings),
      s.hashedBytes c a = s.hashedBytes d b → c = d ∧ a = b := by
  intro h
  obtain ⟨-, heq⟩ := h (GitFlow.scenario id) .angular .angular (withPattern none)
    (withPattern (some "")) rfl
  exact absurd (congrArg BuildSettings.tagPattern heq) (by decide)

end Scenario

end ReleaseHistory
