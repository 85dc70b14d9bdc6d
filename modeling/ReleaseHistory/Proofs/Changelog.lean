import ReleaseHistory.Changelog
import ReleaseHistory.Proofs.Text.Split

/-!
# Changelogs that grow

A new section comes between the heading and what stood below the heading before. So whatever the
titles of the releases are, all their sections stand below one heading, the newest first, and only the
section of the first release can be masked: below any other section there is one already.
-/

namespace ReleaseHistory.Changelog

/-- The body of the section of a first release that is masked. -/
def initialBody : String := "- Initial Release\n"

def laterBody : String := "- Release generated from repository history\n"

def firstBody (mask : Bool) : String := if mask then initialBody else laterBody

variable {format : ChangelogFormat} {text previous : String}

/-! ### One section more -/

theorem sections_heading_append (format : ChangelogFormat) (previous : String) :
    sections format (heading format ++ previous) = previous := by
  have hdrop : Text.dropStart? (heading format).toList (heading format ++ previous).toList =
      some previous.toList := Text.dropStart?_eq_some.2 String.toList_append
  rw [sections, hdrop]
  exact String.ofList_toList

theorem sections_of_ne (h : ∀ previous, text ≠ heading format ++ previous) :
    sections format text = text := by
  unfold sections
  split
  · rename_i chars hchars
    refine absurd ?_ (h (String.ofList chars))
    rw [← String.toList_inj, String.toList_append, String.toList_ofList]
    exact Text.dropStart?_eq_some.1 hchars
  · rfl

theorem eq_heading_append_or (format : ChangelogFormat) (text : String) :
    text = heading format ++ sections format text ∨
      (∀ previous, text ≠ heading format ++ previous) ∧ sections format text = text := by
  by_cases hheading : ∃ previous, text = heading format ++ previous
  · obtain ⟨previous, rfl⟩ := hheading
    exact .inl (by rw [sections_heading_append])
  · rw [not_exists] at hheading
    exact .inr ⟨hheading, sections_of_ne hheading⟩

theorem update_none (format : ChangelogFormat) (title : String) (mask : Bool) :
    update format none title mask = heading format ++ newSection format title (firstBody mask) := by
  have hempty : (mask && ("" : String).isEmpty) = mask := Bool.and_true mask
  unfold update
  dsimp only
  rw [hempty, String.append_empty]
  rfl

theorem update_some (format : ChangelogFormat) (text title : String) (mask : Bool) :
    update format (some text) title mask = heading format ++
      newSection format title (firstBody (mask && (sections format text).isEmpty)) ++
        sections format text :=
  rfl

/-- Where something stands below the heading a release is not the first one, masked or not. -/
theorem update_heading_append (h : previous.isEmpty = false) (title : String) (mask : Bool) :
    update format (some (heading format ++ previous)) title mask =
      heading format ++ (newSection format title laterBody ++ previous) := by
  rw [update_some, sections_heading_append, h, Bool.and_false]
  exact String.append_assoc

theorem isEmpty_newSection_append (format : ChangelogFormat) (title body previous : String) :
    (newSection format title body ++ previous).isEmpty = false := by
  have hline : '\n' ∈ (newSection format title body).toList := by
    cases format <;> simp [newSection, toString, String.toList_append]
  rw [Bool.eq_false_iff, Ne, String.isEmpty_iff]
  intro hempty
  rw [(String.append_eq_empty_iff.1 hempty).1] at hline
  exact List.not_mem_nil hline

/-! ### All sections -/

/-- A changelog after releases with some titles, the oldest first. -/
def updateAll (format : ChangelogFormat) (mask : Bool) (existing : Option String)
    (titles : List String) : Option String :=
  titles.foldl (fun text title => some (update format text title mask)) existing

/-- The sections of releases with some titles, none of which is masked. -/
def laterSections (format : ChangelogFormat) (titles : List String) : String :=
  String.join (titles.map fun title => newSection format title laterBody)

theorem laterSections_concat (format : ChangelogFormat) (titles : List String) (title : String) :
    laterSections format (titles ++ [title]) =
      laterSections format titles ++ newSection format title laterBody := by
  simp [laterSections, String.join_append]

/-- Releases put their sections above what stands below the heading, the newest at the top. -/
theorem updateAll_heading_append (h : previous.isEmpty = false) (mask : Bool)
    (titles : List String) :
    updateAll format mask (some (heading format ++ previous)) titles =
      some (heading format ++ (laterSections format titles.reverse ++ previous)) := by
  -- for any text below the heading: the section of the first title is part of it for the others
  induction titles generalizing previous with
  | nil => simp [updateAll, laterSections]
  | cons title titles ih =>
    calc updateAll format mask (some (heading format ++ previous)) (title :: titles)
        = updateAll format mask
            (some (heading format ++ (newSection format title laterBody ++ previous))) titles := by
          rw [updateAll, List.foldl_cons, update_heading_append h]
          rfl
      _ = some (heading format ++ (laterSections format titles.reverse ++
            (newSection format title laterBody ++ previous))) :=
          ih (isEmpty_newSection_append format title laterBody previous)
      _ = some (heading format ++ (laterSections format (title :: titles).reverse ++ previous)) := by
          rw [List.reverse_cons, laterSections_concat, String.append_assoc]

/-- Over no file the sections of all releases stand below one heading, the newest first, and the
section of the first release is masked if that is asked for and no other one is. Over any text the
new section comes below the heading and above the text, which loses one heading if it begins with
one. -/
theorem sections_accumulate (format : ChangelogFormat) (mask : Bool) :
    (∀ first later, updateAll format mask none (first :: later) =
      some (heading format ++
        (laterSections format later.reverse ++ newSection format first (firstBody mask)))) ∧
    ∀ text title, ∃ previous,
      (text = heading format ++ previous ∨
        (∀ below, text ≠ heading format ++ below) ∧ previous = text) ∧
      update format (some text) title mask = heading format ++
        newSection format title (if mask = true ∧ previous = "" then initialBody else laterBody) ++
          previous := by
  constructor
  · intro first later
    -- the first section is what stands below the heading for all later ones
    have hsection := isEmpty_newSection_append format first (firstBody mask) ""
    rw [String.append_empty] at hsection
    rw [← updateAll_heading_append hsection, ← update_none]
    rfl
  · intro text title
    refine ⟨sections format text, eq_heading_append_or format text, ?_⟩
    have hbody : firstBody (mask && (sections format text).isEmpty) =
        if mask = true ∧ sections format text = "" then initialBody else laterBody := by
      simp only [firstBody, Bool.and_eq_true, String.isEmpty_iff]
    rw [update_some, hbody]

example : updateAll .markdown true none ["v1.0.0", "v1.1.0"] =
    some ("# CHANGELOG\n\n## v1.1.0\n\n- Release generated from repository history\n\n" ++
      "## v1.0.0\n\n- Initial Release\n\n") := by decide +kernel

end ReleaseHistory.Changelog
