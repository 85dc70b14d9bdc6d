import Mathlib
import ReleaseHistory.Git.Object
import ReleaseHistory.Proofs.Text.Digits
import ReleaseHistory.Proofs.Text.Split

/-!
# What an object says

The stored form of a commit determines the names of its snapshot and of its parents, its signature
as stored and its message, as long as none of its lines is broken by a line feed. So two commits of
the same name, in the absence of collisions, agree in all of these.
-/

namespace ReleaseHistory.Git

/-! ### Bytes of a text -/

theorem toList_loop (b : ByteArray) (i : Nat) (read : List UInt8) :
    ByteArray.toList.loop b i read = read.reverse ++ b.data.toList.drop i := by
  fun_induction ByteArray.toList.loop b i read with
  | case1 i read h ih =>
    have hi : i < b.data.size := h
    have hdrop : b.data.toList.drop i = b.get! i :: b.data.toList.drop (i + 1) := by
      rw [List.drop_eq_getElem_cons hi]
      simp [ByteArray.get!, getElem!_pos b.data i hi]
    rw [ih, hdrop, List.reverse_cons, List.append_assoc]
    rfl
  | case2 i read h =>
    have hdrop : b.data.toList.drop i = [] := List.drop_of_length_le (Nat.le_of_not_lt h)
    rw [hdrop, List.append_nil]

theorem toList_eq_data (b : ByteArray) : b.toList = b.data.toList := by
  rw [ByteArray.toList, toList_loop, List.reverse_nil, List.nil_append, List.drop_zero]

theorem eq_of_toUTF8_toList {s u : String} (h : s.toUTF8.toList = u.toUTF8.toList) : s = u := by
  rw [toList_eq_data, toList_eq_data] at h
  apply String.toByteArray_inj.1
  exact ByteArray.ext (Array.toList_inj.1 h)

/-! ### Usable names -/

theorem Signature.notMem_of_isUsable {name : String} {c : Char} (h : isUsable name = true)
    (hc : c = '<' ∨ c = '>' ∨ c = '\x00') : c ∉ name.toList := by
  intro hmem
  simp only [isUsable, Bool.and_eq_true, Bool.not_eq_true', List.any_eq_false] at h
  refine h.1 c hmem ?_
  rcases hc with rfl | rfl | rfl <;> decide

/-! ### Lines and a message -/

/-- A line of an object: it is not empty and not broken. -/
def IsLine (line : String) : Prop := line ≠ "" ∧ '\n' ∉ line.toList

/-- Lines, an empty line and a message, as characters. -/
def lineChars (lines : List String) (message : List Char) : List Char :=
  (lines.flatMap fun l => l.toList ++ ['\n']) ++ '\n' :: message

theorem lineChars_inj {lines lines' : List String} {message message' : List Char}
    (hlines : ∀ l ∈ lines, IsLine l) (hlines' : ∀ l ∈ lines', IsLine l)
    (h : lineChars lines message = lineChars lines' message') :
    lines = lines' ∧ message = message' := by
  -- a line that is not empty does not begin where the lines end
  have hends : ∀ {l : String} {rest cs : List Char}, IsLine l → '\n' :: cs ≠ l.toList ++ rest := by
    intro l rest cs hl heq
    cases hchars : l.toList with
    | nil => exact hl.1 (String.toList_eq_nil_iff.1 hchars)
    | cons c chars =>
      rw [hchars] at heq
      have hc : c = '\n' := (List.cons.inj heq).1.symm
      exact hl.2 (by simp [hchars, hc])
  induction lines generalizing lines' with
  | nil =>
    cases lines' with
    | nil => exact ⟨rfl, (List.cons.inj h).2⟩
    | cons l' lines' =>
      rw [lineChars, lineChars, List.flatMap_cons, List.append_assoc, List.append_assoc] at h
      exact absurd h (hends (hlines' l' (List.mem_cons_self ..)))
  | cons l lines ih =>
    have hl := hlines l (List.mem_cons_self ..)
    cases lines' with
    | nil =>
      rw [lineChars, lineChars, List.flatMap_cons, List.append_assoc, List.append_assoc] at h
      exact absurd h.symm (hends hl)
    | cons l' lines' =>
      have hl' := hlines' l' (List.mem_cons_self ..)
      simp only [lineChars, List.flatMap_cons, List.append_assoc, List.cons_append,
        List.nil_append] at h
      obtain ⟨hchars, hrest⟩ := Text.eq_of_append_separator hl.2 hl'.2 h
      obtain ⟨rfl, hmessage⟩ := ih (fun k hk => hlines k (List.mem_cons_of_mem l hk))
        (fun k hk => hlines' k (List.mem_cons_of_mem l' hk)) hrest
      exact ⟨by rw [String.toList_injective hchars], hmessage⟩

theorem encodeLines_content (kind : String) (lines : List String) (message : String) :
    encodeLines kind lines message =
      ⟨kind, (String.ofList (lineChars lines message.toList)).toUTF8.toList⟩ := by
  have htext : String.join (lines.map (· ++ "\n")) ++ "\n" ++ message =
      String.ofList (lineChars lines message.toList) := by
    apply String.toList_injective
    simp [lineChars, String.toList_join, List.flatMap_map]
  rw [encodeLines, htext]

theorem encodeLines_inj {kind kind' : String} {lines lines' : List String}
    {message message' : String} (hlines : ∀ l ∈ lines, IsLine l) (hlines' : ∀ l ∈ lines', IsLine l)
    (h : encodeLines kind lines message = encodeLines kind' lines' message') :
    lines = lines' ∧ message = message' := by
  rw [encodeLines_content, encodeLines_content, Encoded.mk.injEq] at h
  have htext := eq_of_toUTF8_toList h.2
  obtain ⟨hlines, hmessage⟩ := lineChars_inj hlines hlines' (String.ofList_injective htext)
  exact ⟨hlines, String.toList_injective hmessage⟩

/-! ### Names of objects -/

theorem hexDigit_lines (n : Nat) (h : n < 16) : Text.hexDigit n ≠ '\n' := by
  have hall : ∀ n < 16, Text.hexDigit n ≠ '\n' := by decide
  exact hall n h

theorem hexDigit_inj {m n : Nat} (hm : m < 16) (hn : n < 16)
    (h : Text.hexDigit m = Text.hexDigit n) : m = n := by
  have hall : ∀ m < 16, ∀ n < 16, Text.hexDigit m = Text.hexDigit n → m = n := by decide
  exact hall m hm n hn h

theorem toList_hexId (id : ObjectId) :
    (hexId id).toList = id.flatMap fun b => [Text.hexDigit (b.toNat / 16), Text.hexDigit (b.toNat % 16)] :=
  String.toList_ofList

theorem newline_not_mem_hexId (id : ObjectId) : '\n' ∉ (hexId id).toList := by
  intro hmem
  rw [toList_hexId, List.mem_flatMap] at hmem
  obtain ⟨b, -, hb⟩ := hmem
  have hlt := b.toNat_lt
  simp only [List.mem_cons, List.not_mem_nil, or_false] at hb
  rcases hb with hb | hb
  · exact hexDigit_lines _ (by omega) hb.symm
  · exact hexDigit_lines _ (by omega) hb.symm

theorem hexId_inj {a b : ObjectId} (h : hexId a = hexId b) : a = b := by
  have hchars := congrArg String.toList h
  rw [toList_hexId, toList_hexId] at hchars
  clear h
  induction a generalizing b with
  | nil =>
    cases b with
    | nil => rfl
    | cons y b => cases hchars
  | cons x a ih =>
    cases b with
    | nil => cases hchars
    | cons y b =>
      have hx := x.toNat_lt
      have hy := y.toNat_lt
      simp only [List.flatMap_cons, List.cons_append, List.nil_append, List.cons.injEq] at hchars
      obtain ⟨hhigh, hlow, hrest⟩ := hchars
      have hdiv := hexDigit_inj (by omega) (by omega) hhigh
      have hmod := hexDigit_inj (by omega) (by omega) hlow
      have hbyte : x = y := UInt8.toNat_inj.1 (by omega)
      rw [hbyte, ih hrest]

/-! ### Commits -/

theorem newline_not_mem_padded (width n : Nat) : '\n' ∉ (Text.padded width n).toList := by
  intro hmem
  exact absurd (Text.isDigit_of_mem_padded hmem) (by decide)

theorem Signature.newline_not_mem_text {s : Signature} (h : s.isStorable = true) : '\n' ∉ s.text.toList := by
  obtain ⟨hname, hemail⟩ : '\n' ∉ s.name.toList ∧ '\n' ∉ s.email.toList := by
    simpa [isStorable] using h
  have hseconds : '\n' ∉ Nat.toDigits 10 s.storedSeconds := by
    intro hmem
    exact absurd (Nat.isDigit_of_mem_toDigits (by decide) (by decide) hmem) (by decide)
  have hsign : '\n' ∉ (if s.offset < 0 then "-" else "+").toList := by
    split_ifs <;> decide
  simp [text, toString, hname, hemail, hseconds, hsign, newline_not_mem_padded]

namespace CommitObject

def lines (c : CommitObject) (parents : List ObjectId) : List String :=
  ["tree " ++ hexId c.snapshot.id] ++ parents.map (fun p => "parent " ++ hexId p) ++
    ["author " ++ c.signature.text, "committer " ++ c.signature.text]

theorem encode_eq (c : CommitObject) (parents : List ObjectId) :
    c.encode parents = encodeLines "commit" (c.lines parents) c.message := by
  simp [encode, lines, toString]

theorem isLine_lines {c : CommitObject} (h : c.signature.isStorable = true)
    (parents : List ObjectId) : ∀ l ∈ c.lines parents, IsLine l := by
  have hword : ∀ {word rest : String}, IsLine word → '\n' ∉ rest.toList → IsLine (word ++ rest) := by
    intro word rest hword hrest
    refine ⟨fun hempty => hword.1 (String.append_eq_empty_iff.1 hempty).1, ?_⟩
    rw [String.toList_append, List.mem_append]
    exact fun hmem => hmem.elim hword.2 hrest
  have hsignature := Signature.newline_not_mem_text h
  intro l hl
  simp only [lines, List.mem_append, List.mem_cons, List.mem_map, List.not_mem_nil, or_false] at hl
  rcases hl with (rfl | ⟨p, -, rfl⟩) | rfl | rfl
  · exact hword ⟨by decide, by decide⟩ (newline_not_mem_hexId _)
  · exact hword ⟨by decide, by decide⟩ (newline_not_mem_hexId _)
  · exact hword ⟨by decide, by decide⟩ hsignature
  · exact hword ⟨by decide, by decide⟩ hsignature

theorem append_inj {word a b : String} (h : word ++ a = word ++ b) : a = b := by
  have hchars := congrArg String.toList h
  rw [String.toList_append, String.toList_append] at hchars
  exact String.toList_injective (List.append_cancel_left hchars)

/-- The stored form of a commit says what its parents are, who made it when, and its message. -/
theorem encode_inj {c d : CommitObject} {parents parents' : List ObjectId}
    (hc : c.signature.isStorable = true) (hd : d.signature.isStorable = true)
    (h : c.encode parents = d.encode parents') :
    c.snapshot.id = d.snapshot.id ∧ parents = parents' ∧ c.signature.text = d.signature.text ∧
      c.message = d.message := by
  rw [encode_eq, encode_eq] at h
  obtain ⟨hlines, hmessage⟩ := encodeLines_inj (isLine_lines hc parents) (isLine_lines hd parents') h
  rw [lines, lines, List.append_assoc, List.append_assoc] at hlines
  -- the lengths are compared apart from the lines, which must not be evaluated
  have hone : ∀ a b : String, [a].length = [b].length := fun _ _ => rfl
  have htwo : ∀ a b a' b' : String, [a, b].length = [a', b'].length := fun _ _ _ _ => rfl
  obtain ⟨htree, hrest⟩ := List.append_inj hlines (hone _ _)
  obtain ⟨hparents, hsignatures⟩ := List.append_inj' hrest (htwo _ _ _ _)
  have hinjective : Function.Injective fun p => "parent " ++ hexId p :=
    fun p q hpq => hexId_inj (append_inj hpq)
  exact ⟨hexId_inj (append_inj (List.cons.inj htree).1), hinjective.list_map hparents,
    append_inj (List.cons.inj hsignatures).1, hmessage⟩

end CommitObject

end ReleaseHistory.Git
