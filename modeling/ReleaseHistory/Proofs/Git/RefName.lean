import ReleaseHistory.Git.RefName
import ReleaseHistory.Proofs.Text.Split

/-!
# Full names of branches and tags

A name in normal form has the parts of the name that it was made of, without the empty ones. So
slashes at the front of a branch do not count, and no branch has the full name of a tag.
-/

namespace ReleaseHistory.Git.RefName

variable {name full : String}

/-! ### Parts -/

theorem splitOn_normalize? (h : normalize? name = some full) :
    Text.splitOn '/' full = (Text.splitOn '/' name).filter (· ≠ "") := by
  have hkept : ((Text.splitAll '/' name.toList).filter (!·.isEmpty)).map String.ofList =
      (Text.splitOn '/' name).filter (· ≠ "") := by
    rw [Text.splitOn, List.filter_map]
    congr 1
    apply List.filter_congr
    intro part _
    rw [Function.comp_apply, Bool.eq_iff_iff]
    simp [← String.toList_inj]
  unfold normalize? at h
  dsimp only at h
  split at h
  · rename_i hparts
    simp only [Bool.and_eq_true, Bool.not_eq_true', List.isEmpty_eq_false_iff] at hparts
    rw [hkept] at h
    cases h
    apply Text.splitOn_intercalate
    · rw [← hkept]
      simpa using hparts.1.1.2
    · intro part hpart
      exact Text.not_mem_of_mem_splitOn (List.mem_filter.1 hpart).1
  · cases h

theorem splitOn_place_append (first second name : String) (hfirst : '/' ∉ first.toList)
    (hsecond : '/' ∉ second.toList) :
    Text.splitOn '/' (first ++ "/" ++ (second ++ "/" ++ name)) =
      first :: second :: Text.splitOn '/' name := by
  simp [Text.splitOn, Text.splitAll_append, Text.splitAll_of_not_mem hfirst,
    Text.splitAll_of_not_mem hsecond]

theorem normalize?_double_slash (before after : List Char) :
    normalize? (String.ofList (before ++ '/' :: '/' :: after)) =
      normalize? (String.ofList (before ++ '/' :: after)) := by
  have hlast : (before ++ '/' :: '/' :: after).getLast? = (before ++ '/' :: after).getLast? := by
    cases after <;> simp [List.getLast?_append, List.getLast?_cons_cons]
  have hpart : isPart [] = true := by decide
  unfold normalize?
  simp only [String.toList_ofList, Text.splitAll_append, hlast]
  simp [Text.splitAll, hpart]

theorem normalize?_dropWhile (before after : List Char) :
    normalize? (String.ofList (before ++ '/' :: after.dropWhile (· = '/'))) =
      normalize? (String.ofList (before ++ '/' :: after)) := by
  induction after with
  | nil => rfl
  | cons c after ih =>
    by_cases hc : c = '/'
    · subst hc
      rw [List.dropWhile_cons_of_pos (by simp), ih, normalize?_double_slash]
    · rw [List.dropWhile_cons_of_neg (by simpa using hc)]

/-! ### Places -/

theorem normalize?_headsPlace_append (name : String) :
    normalize? (headsPlace ++ name) = branch? name := by
  have hplace : headsPlace.toList = "refs/heads".toList ++ ['/'] := by decide
  have happend : ∀ cs : List Char,
      headsPlace ++ String.ofList cs = String.ofList ("refs/heads".toList ++ '/' :: cs) := by
    intro cs
    rw [← String.toList_inj, String.toList_append, hplace]
    simp only [String.toList_ofList, List.append_assoc, List.singleton_append]
  rw [branch?, below, happend, normalize?_dropWhile, ← happend, String.ofList_toList]

theorem splitOn_branch? (h : branch? name = some full) :
    ∃ rest, Text.splitOn '/' full = "refs" :: "heads" :: rest := by
  have hparts : Text.splitOn '/' (headsPlace ++ name) = "refs" :: "heads" :: Text.splitOn '/' name :=
    splitOn_place_append "refs" "heads" name (by decide) (by decide)
  rw [← normalize?_headsPlace_append] at h
  rw [splitOn_normalize? h, hparts]
  exact ⟨_, rfl⟩

theorem splitOn_tag? (h : tag? name = some full) :
    ∃ rest, Text.splitOn '/' full = "refs" :: "tags" :: rest := by
  have hparts : ∀ name, Text.splitOn '/' (tagsPlace ++ name) =
      "refs" :: "tags" :: Text.splitOn '/' name := fun name =>
    splitOn_place_append "refs" "tags" name (by decide) (by decide)
  rw [splitOn_normalize? h, below, hparts]
  exact ⟨_, rfl⟩

theorem branch?_ne_tag? {tag : String} (h : branch? name = some full) : tag? tag ≠ some full := by
  intro htag
  obtain ⟨_, hheads⟩ := splitOn_branch? h
  obtain ⟨_, htags⟩ := splitOn_tag? htag
  rw [hheads] at htags
  simp at htags

end ReleaseHistory.Git.RefName
