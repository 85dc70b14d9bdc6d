import Mathlib.Data.List.Infix
import ReleaseHistory.TagFormat
import ReleaseHistory.Proofs.Text.Split

/-!
# Tag names tell versions apart

A pattern is accepted exactly if the placeholder stands somewhere in it. The places are found in the
pattern alone, whatever is put there: a name is the parts of the pattern around its places, with the
version between each two of them. So a longer version makes a longer tag name, and versions of one
length stand at the same place of their tag names.
-/

namespace ReleaseHistory

namespace Text

theorem isSome_dropStart? {start cs : List Char} :
    (dropStart? start cs).isSome = true ↔ start <+: cs := by
  simp only [Option.isSome_iff_exists, dropStart?_eq_some, List.IsPrefix]
  exact exists_congr fun _ => eq_comm

end Text

namespace TagFormat

theorem holdsPlaceholder_iff {cs : List Char} :
    holdsPlaceholder cs = true ↔ placeholder <:+: cs := by
  induction cs with
  | nil => simp [holdsPlaceholder, placeholder]
  | cons c cs ih =>
    rw [holdsPlaceholder, Bool.or_eq_true, Text.isSome_dropStart?, ih, List.infix_cons_iff]

theorem ofPattern?_eq_none {pattern : String} :
    ofPattern? pattern = none ↔ ¬placeholder <:+: pattern.toList := by
  rw [← holdsPlaceholder_iff]
  unfold ofPattern?
  split <;> simp_all

/-- A format is made of the default or of any pattern with a place for the version. -/
theorem exists_ofOption {pattern : Option String} :
    (∃ f, ofOption pattern = .ok f) ↔ ∀ p ∈ pattern, placeholder <:+: p.toList := by
  cases pattern with
  | none => simp [ofOption]
  | some p =>
    have hplace : ofPattern? p ≠ none ↔ placeholder <:+: p.toList := by
      rw [ne_eq, ofPattern?_eq_none, Decidable.not_not]
    simp only [Option.mem_def, Option.some.injEq, forall_eq', ← hplace, ofOption]
    cases ofPattern? p <;> simp

/-! ### Filling the places -/

/-- A version put in the places of a part of a pattern. -/
def fill (version : List Char) : Nat → List Char → List Char :=
  Text.replaceAll.go placeholder version

theorem fill_cons_of_place {version cs rest : List Char} {c : Char} {fuel : Nat}
    (h : Text.dropStart? placeholder (c :: cs) = some rest) :
    fill version (fuel + 1) (c :: cs) = version ++ fill version fuel rest := by
  simp only [fill, Text.replaceAll.go, placeholder] at h ⊢
  rw [h]

theorem fill_cons_of_none {version cs : List Char} {c : Char} {fuel : Nat}
    (h : Text.dropStart? placeholder (c :: cs) = none) :
    fill version (fuel + 1) (c :: cs) = c :: fill version fuel cs := by
  simp only [fill, Text.replaceAll.go, placeholder] at h ⊢
  rw [h]

/-- A text taken apart at its places for the version: no part holds a place. -/
structure ApartAtPlaces (cs part : List Char) (parts : List (List Char)) : Prop where
  joined : placeholder.intercalate (part :: parts) = cs
  clear : ∀ p ∈ part :: parts, ¬placeholder <:+: p

theorem ApartAtPlaces.ne_nil {cs part : List Char} {parts : List (List Char)}
    (h : ApartAtPlaces cs part parts) (hholds : holdsPlaceholder cs = true) : parts ≠ [] := by
  rintro rfl
  rw [holdsPlaceholder_iff, ← h.joined, List.intercalate_singleton] at hholds
  exact h.clear part (List.mem_singleton.2 rfl) hholds

theorem fill_eq_intercalate (fuel : Nat) (cs : List Char) (hfuel : cs.length ≤ fuel) :
    ∃ part parts, ApartAtPlaces cs part parts ∧
      ∀ version, fill version fuel cs = version.intercalate (part :: parts) := by
  have hnil : ApartAtPlaces [] [] [] := ⟨rfl, by simp [placeholder]⟩
  induction fuel generalizing cs with
  | zero =>
    obtain rfl : cs = [] := List.length_eq_zero_iff.1 (by omega)
    exact ⟨[], [], hnil, fun _ => rfl⟩
  | succ fuel ih =>
    cases cs with
    | nil => exact ⟨[], [], hnil, fun _ => rfl⟩
    | cons c cs =>
      rw [List.length_cons] at hfuel
      cases hdrop : Text.dropStart? placeholder (c :: cs) with
      | some after =>
        have hcs : c :: cs = placeholder ++ after := Text.dropStart?_eq_some.1 hdrop
        have hlength := congrArg List.length hcs
        have hplace : placeholder.length = 9 := rfl
        rw [List.length_cons, List.length_append] at hlength
        obtain ⟨part, parts, hapart, hfill⟩ := ih after (by omega)
        refine ⟨[], part :: parts, ⟨?_, ?_⟩, fun version => ?_⟩
        · rw [List.intercalate_cons_cons, hapart.joined, List.nil_append, hcs]
        · exact List.forall_mem_cons.2 ⟨by simp [placeholder], hapart.clear⟩
        · rw [fill_cons_of_place hdrop, hfill, List.intercalate_cons_cons, List.nil_append]
      | none =>
        obtain ⟨part, parts, hapart, hfill⟩ := ih cs (by omega)
        obtain ⟨hpart, hparts⟩ := List.forall_mem_cons.1 hapart.clear
        refine ⟨c :: part, parts, ⟨?_, List.forall_mem_cons.2 ⟨?_, hparts⟩⟩, fun version => ?_⟩
        · rw [Text.intercalate_cons_head, hapart.joined]
        · -- a place at the start of the part would be one at the start of the text
          have hstart : c :: part <+: c :: cs := by
            rw [← hapart.joined]
            exact List.cons_prefix_cons.2 ⟨rfl, Text.prefix_intercalate placeholder part parts⟩
          have hnone : ¬placeholder <+: c :: cs := by
            rw [← Text.isSome_dropStart?, hdrop]
            exact Bool.false_ne_true
          rw [List.infix_cons_iff, not_or]
          exact ⟨fun hplace => hnone (hplace.trans hstart), hpart⟩
        · rw [fill_cons_of_none hdrop, hfill, Text.intercalate_cons_head]

/-- The name of a tag is the pattern with the version in the place of every placeholder. -/
theorem name_eq_intercalate (f : TagFormat) :
    ∃ part parts, ApartAtPlaces f.pattern.toList part parts ∧ parts ≠ [] ∧
      ∀ version, (f.name version).toList = version.toList.intercalate (part :: parts) := by
  obtain ⟨part, parts, hapart, hfill⟩ :=
    fill_eq_intercalate f.pattern.toList.length f.pattern.toList (le_refl _)
  refine ⟨part, parts, hapart, hapart.ne_nil f.has_place, fun version => ?_⟩
  rw [← hfill]
  exact String.toList_ofList

theorem name_injective (f : TagFormat) : Function.Injective f.name := by
  intro v w h
  obtain ⟨part, parts, -, hparts, hname⟩ := f.name_eq_intercalate
  have hvw := congrArg String.toList h
  rw [hname, hname] at hvw
  exact String.toList_injective (Text.eq_of_intercalate_eq hparts hvw)

theorem pattern_of_ofOption {pattern : String} {f : TagFormat}
    (h : ofOption (some pattern) = .ok f) : f.pattern = pattern := by
  unfold ofOption ofPattern? at h
  dsimp only at h
  by_cases hholds : holdsPlaceholder pattern.toList = true
  · rw [dif_pos hholds] at h
    obtain rfl := Except.ok.inj h
    rfl
  · rw [dif_neg hholds] at h
    cases h

/-- An accepted pattern has some parts, two at least, with its places between them. The name of a
tag has the version in these places, so it tells which version it is the name of. -/
theorem names_of_accepted {pattern : String} {f : TagFormat}
    (h : ofOption (some pattern) = .ok f) :
    (∃ part parts, ApartAtPlaces pattern.toList part parts ∧ parts ≠ [] ∧
        ∀ version, (f.name version).toList = version.toList.intercalate (part :: parts)) ∧
      ∀ v w, f.name v = f.name w → v = w := by
  refine ⟨?_, fun v w hvw => f.name_injective hvw⟩
  rw [← pattern_of_ofOption h]
  exact f.name_eq_intercalate

/-- With two places in a pattern and a placeholder as the version, names still differ. -/
theorem names_of_accepted_placeholder :
    ∃ f, ofOption (some "\x7bversion\x7d/\x7bversion\x7d") = .ok f ∧
      f.name "\x7bversion\x7d" ≠ f.name "1.0.0" := by
  have hplace : holdsPlaceholder "\x7bversion\x7d/\x7bversion\x7d".toList = true := by decide
  have haccepted : ofOption (some "\x7bversion\x7d/\x7bversion\x7d") =
      .ok ⟨"\x7bversion\x7d/\x7bversion\x7d", hplace⟩ := by
    rw [ofOption, ofPattern?, dif_pos hplace]
  refine ⟨_, haccepted, fun hname => ?_⟩
  exact absurd ((names_of_accepted haccepted).2 _ _ hname) (by decide)

end TagFormat

end ReleaseHistory
