import ReleaseHistory.Text.Blank

/-!
# Parts between separators

Splitting a text at a separator in it gives the parts before the separator and those after it, and
parts without the separator are what a text is split into that joins them. What starts a text can be
dropped from it.
-/

namespace ReleaseHistory.Text

theorem splitAll_ne_nil (sep : Char) (cs : List Char) : splitAll sep cs ≠ [] := by
  cases cs with
  | nil => simp [splitAll]
  | cons c cs =>
    simp only [splitAll]
    split
    · simp
    · split <;> simp

theorem splitOn_ne_nil (sep : Char) (s : String) : splitOn sep s ≠ [] := by
  simp [splitOn, splitAll_ne_nil]

theorem splitAll_append (sep : Char) (cs ds : List Char) :
    splitAll sep (cs ++ sep :: ds) = splitAll sep cs ++ splitAll sep ds := by
  induction cs with
  | nil => simp [splitAll]
  | cons c cs ih =>
    by_cases h : c = sep
    · simp [splitAll, h, ih]
    · simp only [List.cons_append, splitAll, if_neg h, ih]
      cases hsplit : splitAll sep cs with
      | nil => exact absurd hsplit (splitAll_ne_nil sep cs)
      | cons part parts => rfl

theorem splitAll_of_not_mem {sep : Char} {cs : List Char} (h : sep ∉ cs) :
    splitAll sep cs = [cs] := by
  induction cs with
  | nil => rfl
  | cons c cs ih =>
    simp only [List.mem_cons, not_or] at h
    simp [splitAll, Ne.symm h.1, ih h.2]

theorem not_mem_of_mem_splitAll {sep : Char} {cs part : List Char} (h : part ∈ splitAll sep cs) :
    sep ∉ part := by
  induction cs generalizing part with
  | nil =>
    rw [splitAll, List.mem_singleton] at h
    rw [h]
    exact List.not_mem_nil
  | cons c cs ih =>
    rw [splitAll] at h
    split at h
    · rcases List.mem_cons.1 h with rfl | h
      · exact List.not_mem_nil
      · exact ih h
    · rename_i hc
      cases hsplit : splitAll sep cs with
      | nil => exact absurd hsplit (splitAll_ne_nil sep cs)
      | cons first rest =>
        rw [hsplit] at h ih
        rcases List.mem_cons.1 h with rfl | h
        · simp [Ne.symm hc, ih (List.mem_cons_self ..)]
        · exact ih (List.mem_cons_of_mem first h)

theorem not_mem_of_mem_splitOn {sep : Char} {s part : String} (h : part ∈ splitOn sep s) :
    sep ∉ part.toList := by
  obtain ⟨cs, hcs, rfl⟩ := List.mem_map.1 h
  rw [String.toList_ofList]
  exact not_mem_of_mem_splitAll hcs

theorem splitAll_intercalate {sep : Char} {parts : List (List Char)} (hne : parts ≠ [])
    (hparts : ∀ part ∈ parts, sep ∉ part) :
    splitAll sep ([sep].intercalate parts) = parts := by
  induction parts with
  | nil => exact absurd rfl hne
  | cons part parts ih =>
    have hpart := splitAll_of_not_mem (hparts part (List.mem_cons_self ..))
    cases parts with
    | nil => rw [List.intercalate_singleton, hpart]
    | cons next parts =>
      have hrest := ih (by simp) fun p hp => hparts p (List.mem_cons_of_mem part hp)
      rw [List.intercalate_cons_cons, List.append_assoc, List.singleton_append, splitAll_append,
        hpart, hrest, List.singleton_append]

theorem intercalate_cons_head {sep part : List Char} {c : Char} {parts : List (List Char)} :
    sep.intercalate ((c :: part) :: parts) = c :: sep.intercalate (part :: parts) := by
  cases parts with
  | nil => rw [List.intercalate_singleton, List.intercalate_singleton]
  | cons next parts =>
    rw [List.intercalate_cons_cons, List.intercalate_cons_cons, List.cons_append, List.cons_append]

theorem prefix_intercalate (sep part : List Char) (parts : List (List Char)) :
    part <+: sep.intercalate (part :: parts) := by
  cases parts with
  | nil => exact ⟨[], by rw [List.append_nil, List.intercalate_singleton]⟩
  | cons next parts =>
    rw [List.intercalate_cons_cons, List.append_assoc]
    exact List.prefix_append ..

theorem length_intercalate (sep part : List Char) (parts : List (List Char)) :
    (sep.intercalate (part :: parts)).length =
      (part :: parts).flatten.length + parts.length * sep.length := by
  induction parts generalizing part with
  | nil => simp
  | cons next parts ih =>
    rw [List.intercalate_cons_cons, List.length_append, List.length_append, ih]
    simp only [List.flatten_cons, List.length_append, List.length_cons, Nat.add_mul]
    omega

/-- What stands between the parts of a text, of which there are two at least, is determined by the
text and its parts. -/
theorem eq_of_intercalate_eq {v w part : List Char} {parts : List (List Char)} (hparts : parts ≠ [])
    (h : v.intercalate (part :: parts) = w.intercalate (part :: parts)) : v = w := by
  have hpos : 0 < parts.length := List.length_pos_iff.2 hparts
  have hmul : parts.length * v.length = parts.length * w.length := by
    have hlength := congrArg List.length h
    rw [length_intercalate, length_intercalate] at hlength
    omega
  have hvw : v.length = w.length := Nat.eq_of_mul_eq_mul_left hpos hmul
  rw [List.intercalate_cons_of_ne_nil hparts, List.intercalate_cons_of_ne_nil hparts,
    List.append_assoc, List.append_assoc] at h
  exact (List.append_inj (List.append_cancel_left h) hvw).1

theorem intercalate_splitAll (sep : Char) (cs : List Char) :
    [sep].intercalate (splitAll sep cs) = cs := by
  induction cs with
  | nil => rfl
  | cons c cs ih =>
    rw [splitAll]
    split
    · rename_i hc
      rw [List.intercalate_cons_of_ne_nil (splitAll_ne_nil sep cs), ih, hc]
      rfl
    · cases hsplit : splitAll sep cs with
      | nil => exact absurd hsplit (splitAll_ne_nil sep cs)
      | cons part parts =>
        rw [hsplit] at ih
        exact intercalate_cons_head.trans (congrArg (c :: ·) ih)

/-- Parts without the separator are what a text is split into that has it between them. -/
theorem splitOn_intercalate {sep : Char} {parts : List String} (hne : parts ≠ [])
    (hparts : ∀ part ∈ parts, sep ∉ part.toList) :
    splitOn sep (String.intercalate (String.singleton sep) parts) = parts := by
  have hlists : ∀ cs ∈ parts.map String.toList, sep ∉ cs := List.forall_mem_map.2 hparts
  rw [splitOn, String.toList_intercalate, String.toList_singleton,
    splitAll_intercalate (by simpa using hne) hlists]
  simp

theorem splitAll_cons_self (sep : Char) (cs : List Char) :
    splitAll sep (sep :: cs) = [] :: splitAll sep cs := by
  rw [splitAll, if_pos rfl]

theorem exists_splitAll_cons {sep c : Char} (hc : c ≠ sep) (cs : List Char) :
    ∃ part parts, splitAll sep cs = part :: parts ∧ splitAll sep (c :: cs) = (c :: part) :: parts := by
  rw [splitAll, if_neg hc]
  cases hsplit : splitAll sep cs with
  | nil => exact absurd hsplit (splitAll_ne_nil sep cs)
  | cons part parts => exact ⟨part, parts, rfl, rfl⟩

theorem mem_of_mem_splitAll {sep c : Char} {cs part : List Char} (h : part ∈ splitAll sep cs)
    (hc : c ∈ part) : c ∈ cs := by
  induction cs generalizing part with
  | nil =>
    rw [splitAll, List.mem_singleton] at h
    rwa [h] at hc
  | cons d cs ih =>
    by_cases hd : d = sep
    · rw [hd, splitAll_cons_self] at h
      rcases List.mem_cons.1 h with rfl | h
      · cases hc
      · exact List.mem_cons_of_mem d (ih h hc)
    · obtain ⟨first, rest, hsplit, hcons⟩ := exists_splitAll_cons hd cs
      rw [hsplit] at ih
      rw [hcons] at h
      rcases List.mem_cons.1 h with rfl | h
      · rcases List.mem_cons.1 hc with rfl | hc
        · exact List.mem_cons_self ..
        · exact List.mem_cons_of_mem d (ih (List.mem_cons_self ..) hc)
      · exact List.mem_cons_of_mem d (ih (List.mem_cons_of_mem first h) hc)

/-- What has the parts of another text as its first ones is that text, or goes on with a separator. -/
theorem eq_or_append_of_splitAll {sep : Char} {as bs : List Char}
    (h : splitAll sep as <+: splitAll sep bs) : bs = as ∨ ∃ rest, bs = as ++ sep :: rest := by
  induction as generalizing bs with
  | nil =>
    cases bs with
    | nil => exact .inl rfl
    | cons b bs =>
      by_cases hb : b = sep
      · exact .inr ⟨bs, by rw [hb]; rfl⟩
      · obtain ⟨part, parts, -, hsplit⟩ := exists_splitAll_cons hb bs
        rw [hsplit] at h
        simp [splitAll] at h
  | cons a as ih =>
    have hstep : ∃ bs', bs = a :: bs' ∧ splitAll sep as <+: splitAll sep bs' := by
      by_cases ha : a = sep
      · subst ha
        rw [splitAll_cons_self] at h
        cases bs with
        | nil =>
          obtain ⟨part, parts, hsplit⟩ := List.exists_cons_of_ne_nil (splitAll_ne_nil a as)
          rw [hsplit] at h
          simp [splitAll] at h
        | cons b bs =>
          by_cases hb : b = a
          · subst hb
            rw [splitAll_cons_self] at h
            exact ⟨bs, rfl, (List.cons_prefix_cons.1 h).2⟩
          · obtain ⟨part, parts, -, hsplit⟩ := exists_splitAll_cons hb bs
            rw [hsplit] at h
            simp at h
      · obtain ⟨part, parts, hrest, hsplit⟩ := exists_splitAll_cons ha as
        rw [hsplit] at h
        cases bs with
        | nil => simp [splitAll] at h
        | cons b bs =>
          by_cases hb : b = sep
          · rw [hb, splitAll_cons_self] at h
            simp at h
          · obtain ⟨part', parts', hrest', hsplit'⟩ := exists_splitAll_cons hb bs
            rw [hsplit', List.cons_prefix_cons] at h
            obtain ⟨rfl, rfl⟩ := List.cons.inj h.1
            exact ⟨bs, rfl, by rw [hrest, hrest']; exact List.cons_prefix_cons.2 ⟨rfl, h.2⟩⟩
    obtain ⟨bs, rfl, hrest⟩ := hstep
    rcases ih hrest with rfl | ⟨rest, rfl⟩
    · exact .inl rfl
    · exact .inr ⟨rest, rfl⟩

theorem eq_or_append_of_splitOn {sep : Char} {a b : String}
    (h : splitOn sep a <+: splitOn sep b) : b = a ∨ ∃ rest, b.toList = a.toList ++ sep :: rest := by
  rw [splitOn, splitOn,
    List.prefix_map_iff_of_injective fun _ _ heq => String.ofList_injective heq] at h
  exact (eq_or_append_of_splitAll h).imp_left fun heq => String.toList_injective heq

theorem splitOn_injective {sep : Char} {a b : String} (h : splitOn sep a = splitOn sep b) : a = b := by
  have hbegins : splitOn sep a <+: splitOn sep b := ⟨[], by rw [List.append_nil, h]⟩
  rcases eq_or_append_of_splitOn hbegins with heq | ⟨rest, hrest⟩
  · exact heq.symm
  · have hlength := congrArg List.length h
    rw [splitOn, splitOn, hrest, splitAll_append, List.length_map, List.length_map,
      List.length_append] at hlength
    have hpos := List.length_pos_iff.2 (splitAll_ne_nil sep rest)
    omega

theorem eq_of_append_separator {α : Type} {sep : α} {a b x y : List α} (ha : sep ∉ a) (hb : sep ∉ b)
    (h : a ++ sep :: x = b ++ sep :: y) : a = b ∧ x = y := by
  induction a generalizing b with
  | nil =>
    cases b with
    | nil => exact ⟨rfl, (List.cons.inj h).2⟩
    | cons d b =>
      have hd : sep = d := (List.cons.inj h).1
      exact absurd (hd ▸ List.mem_cons_self ..) hb
  | cons c a ih =>
    cases b with
    | nil =>
      have hc : c = sep := (List.cons.inj h).1
      exact absurd (hc ▸ List.mem_cons_self ..) ha
    | cons d b =>
      obtain ⟨rfl, hrest⟩ := List.cons.inj h
      obtain ⟨rfl, hxy⟩ := ih (fun hmem => ha (List.mem_cons_of_mem c hmem))
        (fun hmem => hb (List.mem_cons_of_mem c hmem)) hrest
      exact ⟨rfl, hxy⟩

theorem dropStart?_eq_some {start cs rest : List Char} :
    dropStart? start cs = some rest ↔ cs = start ++ rest := by
  induction start generalizing cs with
  | nil => simp [dropStart?]
  | cons p ps ih =>
    cases cs with
    | nil => simp [dropStart?]
    | cons c cs =>
      by_cases h : p = c
      · simp [dropStart?, h, ih]
      · simp [dropStart?, h, Ne.symm h]

theorem splitOnce_of_not_mem {sep : Char} {s : String} (h : sep ∉ s.toList) :
    splitOnce sep s = (s, none) := by
  simp [splitOnce, splitAtFirst_of_not_mem h]

theorem splitOnce_append {sep : Char} {a b : String} (h : sep ∉ a.toList) :
    splitOnce sep (a ++ String.singleton sep ++ b) = (a, some b) := by
  simp [splitOnce, List.append_assoc, splitAtFirst_append h]

/-- A text with a separator in it is what stands on the two sides of the first one. -/
theorem exists_eq_append_of_mem {sep : Char} {s : String} (h : sep ∈ s.toList) :
    ∃ a b, sep ∉ a.toList ∧ s = a ++ String.singleton sep ++ b := by
  obtain ⟨as, bs, hs, has⟩ := List.eq_append_cons_of_mem h
  refine ⟨String.ofList as, String.ofList bs, by rwa [String.toList_ofList], ?_⟩
  apply String.toList_injective
  simp [hs]

theorem splitAtFirst_prefix (sep : Char) (cs : List Char) : (splitAtFirst sep cs).1 <+: cs := by
  induction cs with
  | nil => exact List.nil_prefix
  | cons c cs ih =>
    rw [splitAtFirst]
    split
    · exact List.nil_prefix
    · exact List.cons_prefix_cons.2 ⟨rfl, ih⟩

theorem not_mem_splitAtFirst (sep : Char) (cs : List Char) : sep ∉ (splitAtFirst sep cs).1 := by
  induction cs with
  | nil => exact List.not_mem_nil
  | cons c cs ih =>
    rw [splitAtFirst]
    split
    · exact List.not_mem_nil
    · rename_i hc
      exact List.not_mem_cons_of_ne_of_not_mem (Ne.symm hc) ih

theorem dropReturn_subset (cs : List Char) : dropReturn cs ⊆ cs := by
  unfold dropReturn
  split
  · exact List.dropLast_subset cs
  · exact List.Subset.refl cs

theorem not_mem_firstLine (s : String) : '\n' ∉ (firstLine s).toList := by
  have hline := not_mem_splitAtFirst '\n' s.toList
  unfold firstLine
  split
  · rename_i line _ hsplit
    rw [hsplit] at hline
    rw [String.toList_ofList]
    exact fun hmem => hline (dropReturn_subset line hmem)
  · rename_i line hsplit
    rw [hsplit] at hline
    rwa [String.toList_ofList]

end ReleaseHistory.Text
