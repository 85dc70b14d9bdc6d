import ReleaseHistory.Proofs.Json.Scalar

/-!
# Reading values as written

`Written j cs` says that `cs` is a text of the value `j`, with any blanks between its tokens. The
parser reads each text of a value as that value; the compact and the indented form are among them.
-/

namespace ReleaseHistory.Json

open Text (isDigit)

/-! ### Texts of a value -/

/-- Blanks and nothing else. -/
def Blank (ws : List Char) : Prop := ∀ c ∈ ws, isSpace c = true

mutual

/-- The texts of a value. -/
inductive Written : Json → List Char → Prop
  | wordNull : Written .null ['n', 'u', 'l', 'l']
  | wordTrue : Written (.bool true) ['t', 'r', 'u', 'e']
  | wordFalse : Written (.bool false) ['f', 'a', 'l', 's', 'e']
  | integer {n : Int} : Fits n → Written (.integer n) (toString n).toList
  | string (s : String) : Written (.string s) ('\x22' :: quoted s)
  | emptyArray : Written (.array []) ['[', ']']
  | array {items cs} : WrittenItems items cs → Written (.array items) ('[' :: cs)
  | emptyObject : Written (.object []) ['\x7b', '\x7d']
  | object {members cs} : WrittenMembers members cs → Written (.object members) ('\x7b' :: cs)

/-- The texts of the items of an array with the bracket after them. -/
inductive WrittenItems : List Json → List Char → Prop
  | last {j before cs after} : Blank before → Written j cs → Blank after →
      WrittenItems [j] (before ++ cs ++ after ++ [']'])
  | cons {j js before cs ds} : Blank before → Written j cs → WrittenItems js ds →
      WrittenItems (j :: js) (before ++ cs ++ ',' :: ds)

/-- The texts of the members of an object with the brace after them. -/
inductive WrittenMembers : List (String × Json) → List Char → Prop
  | last {name j before between cs after} : Blank before → Blank between → Written j cs →
      Blank after →
      WrittenMembers [(name, j)]
        (before ++ '\x22' :: quoted name ++ ':' :: between ++ cs ++ after ++ ['\x7d'])
  | cons {name j members before between cs ds} : Blank before → Blank between → Written j cs →
      WrittenMembers members ds →
      WrittenMembers ((name, j) :: members)
        (before ++ '\x22' :: quoted name ++ ':' :: between ++ cs ++ ',' :: ds)

end

theorem skipSpace_append {ws cs : List Char} (h : Blank ws) :
    skipSpace (ws ++ cs) = skipSpace cs :=
  List.dropWhile_append_of_pos h

theorem head_toString (n : Int) :
    ∃ c ds, (toString n).toList = c :: ds ∧ (c = '-' ∨ isDigit c = true) := by
  cases n with
  | ofNat n =>
    have htext : (toString (Int.ofNat n)).toList = Nat.toDigits 10 n := Nat.toList_repr
    have hne : Nat.toDigits 10 n ≠ [] := Nat.toDigits_ne_nil
    obtain ⟨c, ds, hdigits⟩ := List.exists_cons_of_ne_nil hne
    have hmem : c ∈ Nat.toDigits 10 n := by simp [hdigits]
    exact ⟨c, ds, htext.trans hdigits, .inr (isDigit_of_mem_toDigits hmem)⟩
  | negSucc n =>
    have htext : (toString (Int.negSucc n)).toList = '-' :: Nat.toDigits 10 (n + 1) := by
      have hrepr : toString (Int.negSucc n) = "-" ++ Nat.repr (n + 1) := rfl
      rw [hrepr, String.toList_append, Nat.toList_repr]
      rfl
    exact ⟨'-', _, htext, .inl rfl⟩

theorem not_numeric {c : Char} (h : c = '-' ∨ isDigit c = true) :
    c ∉ [' ', '\n', '\r', '\t', '\x22', '[', ']', '\x7b', '\x7d', 'n', 't', 'f', ','] := by
  intro hmem
  simp only [List.mem_cons, List.not_mem_nil, or_false] at hmem
  rcases hmem with rfl | rfl | rfl | rfl | rfl | rfl | rfl | rfl | rfl | rfl | rfl | rfl | rfl <;>
    exact absurd h (by decide)

theorem isSpace_of_numeric {c : Char} (h : c = '-' ∨ isDigit c = true) : isSpace c = false := by
  have hnot := not_numeric h
  simp only [List.mem_cons, not_or] at hnot
  simp [isSpace, hnot]

theorem Written.head {j : Json} {cs : List Char} (h : Written j cs) :
    ∃ c ds, cs = c :: ds ∧ isSpace c = false ∧ c ≠ ']' := by
  cases h with
  | @integer n hn =>
    obtain ⟨c, ds, htext, hc⟩ := head_toString n
    have hbracket : c ≠ ']' := by
      rintro rfl
      exact not_numeric hc (by decide)
    exact ⟨c, ds, htext, isSpace_of_numeric hc, hbracket⟩
  | _ => exact ⟨_, _, rfl, by decide, by decide⟩

theorem Written.skipSpace_append {j : Json} {ws cs : List Char} (h : Written j cs) (hws : Blank ws)
    (rest : List Char) : skipSpace (ws ++ (cs ++ rest)) = cs ++ rest := by
  obtain ⟨c, ds, rfl, hspace, -⟩ := h.head
  rw [Json.skipSpace_append hws]
  simp [skipSpace, hspace]

theorem skipSpace_cons {ws rest : List Char} {c : Char} (hws : Blank ws)
    (hc : isSpace c = false) : skipSpace (ws ++ c :: rest) = c :: rest := by
  rw [Json.skipSpace_append hws]
  simp [skipSpace, hc]

theorem readValue_number {fuel : Nat} {cs ds : List Char} {c : Char}
    (hskip : skipSpace cs = c :: ds) (hc : c = '-' ∨ isDigit c = true) :
    readValue (fuel + 1) cs = readNumber (c :: ds) := by
  have hnot := not_numeric hc
  rw [readValue, hskip]
  split
  case h_8 => rfl
  case h_1 heq => cases heq
  all_goals
    rename_i heq
    obtain ⟨rfl, -⟩ := List.cons.inj heq
    exact absurd (by decide) hnot

/-- What can stand after the text of a value: nothing, or a blank, a comma or a bracket. -/
theorem endsNumber_cons {c : Char} {cs : List Char}
    (h : c ∈ [' ', '\n', '\r', '\t', ',', ']', '\x7d']) : EndsNumber (c :: cs) := by
  rintro c' ⟨⟩
  simp only [List.mem_cons, List.not_mem_nil, or_false] at h
  rcases h with rfl | rfl | rfl | rfl | rfl | rfl | rfl <;> decide

theorem endsNumber_append {ws rest : List Char} (hws : Blank ws) (hrest : EndsNumber rest) :
    EndsNumber (ws ++ rest) := by
  cases ws with
  | nil => exact hrest
  | cons c ws =>
    have hspace := hws c (by simp)
    apply endsNumber_cons
    simp only [isSpace, Bool.or_eq_true, decide_eq_true_eq] at hspace
    rcases hspace with ((rfl | rfl) | rfl) | rfl <;> decide

theorem skipSpace_skipSpace (cs : List Char) : skipSpace (skipSpace cs) = skipSpace cs :=
  List.dropWhile_idempotent isSpace cs

theorem readValue_skipSpace (fuel : Nat) (cs : List Char) :
    readValue fuel (skipSpace cs) = readValue fuel cs := by
  cases fuel with
  | zero => rfl
  | succ fuel => rw [readValue, readValue, skipSpace_skipSpace]

theorem readItems_skipSpace (fuel : Nat) (cs : List Char) :
    readItems fuel (skipSpace cs) = readItems fuel cs := by
  cases fuel with
  | zero => rfl
  | succ fuel => rw [readItems, readItems, readValue_skipSpace]

theorem readMembers_skipSpace (fuel : Nat) (cs : List Char) :
    readMembers fuel (skipSpace cs) = readMembers fuel cs := by
  cases fuel with
  | zero => rfl
  | succ fuel => rw [readMembers, readMembers, skipSpace_skipSpace]

theorem readValue_array {fuel : Nat} {cs ds es rest : List Char} {c : Char} {items : List Json}
    (hskip : skipSpace cs = '[' :: ds) (hhead : skipSpace ds = c :: es) (hc : c ≠ ']')
    (hread : readItems fuel ds = some (items, rest)) :
    readValue (fuel + 1) cs = some (.array items, rest) := by
  rw [← readItems_skipSpace, hhead] at hread
  rw [readValue, hskip]
  simp only [hhead]
  split
  case h_1 heq =>
    obtain ⟨rfl, -⟩ := List.cons.inj heq
    exact absurd rfl hc
  case h_2 =>
    rw [hread]
    rfl

theorem readValue_object {fuel : Nat} {cs ds es rest : List Char} {members : List (String × Json)}
    (hskip : skipSpace cs = '\x7b' :: ds) (hhead : skipSpace ds = '\x22' :: es)
    (hread : readMembers fuel ds = some (some members, rest)) :
    readValue (fuel + 1) cs = some (.object members, rest) := by
  rw [← readMembers_skipSpace, hhead] at hread
  rw [readValue, hskip]
  simp only [hhead]
  split
  case h_1 heq => exact absurd (List.cons.inj heq).1 (by decide)
  case h_2 =>
    rw [hread]
    rfl

theorem WrittenItems.head {js : List Json} {cs : List Char} (h : WrittenItems js cs)
    (rest : List Char) : ∃ c ds, skipSpace (cs ++ rest) = c :: ds ∧ c ≠ ']' := by
  cases h with
  | @last j before cs after hbefore hwritten hafter =>
    obtain ⟨c, ds, rfl, -, hc⟩ := hwritten.head
    have hskip := hwritten.skipSpace_append hbefore (after ++ ']' :: rest)
    exact ⟨c, _, by simpa using hskip, hc⟩
  | @cons j js before cs ds hbefore hwritten hitems =>
    obtain ⟨c, es, rfl, -, hc⟩ := hwritten.head
    have hskip := hwritten.skipSpace_append hbefore (',' :: (ds ++ rest))
    exact ⟨c, _, by simpa using hskip, hc⟩

theorem WrittenMembers.head {ms : List (String × Json)} {cs : List Char} (h : WrittenMembers ms cs)
    (rest : List Char) : ∃ ds, skipSpace (cs ++ rest) = '\x22' :: ds := by
  cases h with
  | last hbefore =>
    simp only [List.append_assoc, List.cons_append]
    exact ⟨_, skipSpace_cons hbefore (by decide)⟩
  | cons hbefore =>
    simp only [List.append_assoc, List.cons_append]
    exact ⟨_, skipSpace_cons hbefore (by decide)⟩

mutual

/-- A value is read from each of its texts. The fuel covers two steps a character. -/
theorem readValue_of_written {j : Json} {cs : List Char} (h : Written j cs) :
    ∀ {fuel : Nat} {ws rest : List Char}, Blank ws → EndsNumber rest → 2 * cs.length ≤ fuel →
      readValue fuel (ws ++ (cs ++ rest)) = some (j, rest) := by
  intro fuel ws rest hws hrest hfuel
  have hskip := h.skipSpace_append hws rest
  obtain ⟨c, ds, hcs, -, -⟩ := h.head
  have hpos : 0 < cs.length := by simp [hcs]
  obtain ⟨fuel, rfl⟩ : ∃ n, fuel = n + 1 := ⟨fuel - 1, by omega⟩
  cases h with
  | wordNull =>
    rw [readValue, hskip]
    rfl
  | wordTrue =>
    rw [readValue, hskip]
    rfl
  | wordFalse =>
    rw [readValue, hskip]
    rfl
  | @integer n hn =>
    obtain ⟨c, ds, htext, hc⟩ := head_toString n
    have hhead : skipSpace (ws ++ ((toString n).toList ++ rest)) = c :: (ds ++ rest) := by
      rw [hskip, htext, List.cons_append]
    have hread := readNumber_toString hn hrest
    rw [htext] at hread
    rw [readValue_number hhead hc]
    exact hread
  | string s =>
    rw [readValue, hskip]
    simp only [List.cons_append, readString_quoted]
    rfl
  | emptyArray =>
    rw [readValue, hskip]
    rfl
  | @array items ds hitems =>
    have hlength : 2 * ds.length + 1 ≤ fuel := by
      rw [List.length_cons] at hfuel
      omega
    have hread := readItems_of_written hitems rest hlength
    obtain ⟨c, es, hhead, hc⟩ := hitems.head rest
    exact readValue_array hskip hhead hc hread
  | emptyObject =>
    rw [readValue, hskip]
    rfl
  | @object members ds hmembers =>
    have hlength : 2 * ds.length + 1 ≤ fuel := by
      rw [List.length_cons] at hfuel
      omega
    have hread := readMembers_of_written hmembers rest hlength
    obtain ⟨es, hhead⟩ := hmembers.head rest
    exact readValue_object hskip hhead hread

theorem readItems_of_written {js : List Json} {cs : List Char} (h : WrittenItems js cs) :
    ∀ {fuel : Nat} (rest : List Char), 2 * cs.length + 1 ≤ fuel →
      readItems fuel (cs ++ rest) = some (js, rest) := by
  intro fuel rest hfuel
  obtain ⟨fuel, rfl⟩ : ∃ n, fuel = n + 1 := ⟨fuel - 1, by omega⟩
  cases h with
  | @last j before cs after hbefore hwritten hafter =>
    have hlength : 2 * cs.length ≤ fuel := by
      simp only [List.length_append] at hfuel
      omega
    have hvalue := readValue_of_written hwritten hbefore
      (endsNumber_append hafter (endsNumber_cons (by decide) : EndsNumber (']' :: rest))) hlength
    have hskip : skipSpace (after ++ ']' :: rest) = ']' :: rest := skipSpace_cons hafter (by decide)
    rw [readItems]
    simp only [List.append_assoc, List.cons_append, List.nil_append, hvalue]
    simp [hskip]
  | @cons j js before cs ds hbefore hwritten hitems =>
    have hlength : 2 * cs.length ≤ fuel ∧ 2 * ds.length + 1 ≤ fuel := by
      simp only [List.length_append, List.length_cons] at hfuel
      omega
    have hvalue := readValue_of_written hwritten hbefore
      (endsNumber_cons (by decide) : EndsNumber (',' :: (ds ++ rest))) hlength.1
    have hrest := readItems_of_written hitems rest hlength.2
    have hskip : skipSpace (',' :: (ds ++ rest)) = ',' :: (ds ++ rest) := rfl
    rw [readItems]
    simp only [List.append_assoc, List.cons_append, hvalue]
    simp [hskip, hrest]

theorem readMembers_of_written {ms : List (String × Json)} {cs : List Char}
    (h : WrittenMembers ms cs) :
    ∀ {fuel : Nat} (rest : List Char), 2 * cs.length + 1 ≤ fuel →
      readMembers fuel (cs ++ rest) = some (some ms, rest) := by
  intro fuel rest hfuel
  obtain ⟨fuel, rfl⟩ : ∃ n, fuel = n + 1 := ⟨fuel - 1, by omega⟩
  have hcolon : ∀ cs, skipSpace (':' :: cs) = ':' :: cs := fun _ => rfl
  have hcomma : ∀ cs, skipSpace (',' :: cs) = ',' :: cs := fun _ => rfl
  cases h with
  | @last name j before between cs after hbefore hbetween hwritten hafter =>
    have hlength : 2 * cs.length ≤ fuel := by
      simp only [List.length_append, List.length_cons] at hfuel
      omega
    have hvalue := readValue_of_written hwritten hbetween
      (endsNumber_append hafter (endsNumber_cons (by decide) : EndsNumber ('\x7d' :: rest))) hlength
    have hskip : skipSpace (after ++ '\x7d' :: rest) = '\x7d' :: rest :=
      skipSpace_cons hafter (by decide)
    rw [readMembers]
    simp only [List.append_assoc, List.cons_append, List.nil_append,
      skipSpace_cons hbefore (show isSpace '\x22' = false by decide)]
    simp [readString_quoted, hcolon, hvalue, hskip]
  | @cons name j members before between cs ds hbefore hbetween hwritten hmembers =>
    have hlength : 2 * cs.length ≤ fuel ∧ 2 * ds.length + 1 ≤ fuel := by
      simp only [List.length_append, List.length_cons] at hfuel
      omega
    have hvalue := readValue_of_written hwritten hbetween
      (endsNumber_cons (by decide) : EndsNumber (',' :: (ds ++ rest))) hlength.1
    have hrest := readMembers_of_written hmembers rest hlength.2
    rw [readMembers]
    simp only [List.append_assoc, List.cons_append,
      skipSpace_cons hbefore (show isSpace '\x22' = false by decide)]
    simp [readString_quoted, hcolon, hcomma, hvalue, hrest]

end

theorem parse?_eq_some_of_written {s : String} {j : Json} (h : Written j s.toList) :
    parse? s = some j := by
  have hnone : Blank [] := fun _ h => nomatch h
  have hends : EndsNumber [] := fun _ h => nomatch h
  have hread := readValue_of_written h hnone hends (Nat.le_add_right (2 * s.toList.length) 2)
  rw [List.nil_append, List.append_nil] at hread
  simp only [parse?, hread]
  rfl

/-! ### The compact and the indented form -/

mutual

/-- A value that its texts determine: it holds whole numbers in range, and no others. -/
def Exact : Json → Prop
  | .integer n => Fits n
  | .array items => ExactItems items
  | .object members => ExactMembers members
  | .real _ => False
  | .unreadable => False
  | .null => True
  | .bool _ => True
  | .string _ => True

/-- Items that their texts determine. -/
def ExactItems : List Json → Prop
  | [] => True
  | j :: js => Exact j ∧ ExactItems js

/-- Members that their texts determine. -/
def ExactMembers : List (String × Json) → Prop
  | [] => True
  | (_, j) :: members => Exact j ∧ ExactMembers members

end

theorem writtenItems_join {before after : String} (hbefore : Blank before.toList)
    (hafter : Blank after.toList) {js : List Json} {lines : List String}
    (h : List.Forall₂ (fun j line => Written j line.toList) js lines) (hne : js ≠ []) :
    WrittenItems js
      ((String.intercalate "," (lines.map (before ++ ·))).toList ++ (after.toList ++ [']'])) := by
  induction h with
  | nil => exact absurd rfl hne
  | @cons j line js lines hline hlines ih =>
    cases hlines with
    | nil =>
      have hlast := WrittenItems.last hbefore hline hafter
      simpa [String.intercalate_singleton] using hlast
    | @cons k next ks rest hnext hrest =>
      have hitems := ih (List.cons_ne_nil k ks)
      have hcons := WrittenItems.cons hbefore hline hitems
      simpa [String.intercalate_cons_cons] using hcons

/-- A member on its line: the name, a colon, blanks and the value. -/
def IsMember (m : String × Json) (line : String) : Prop :=
  ∃ between text, line = quote m.1 ++ ":" ++ between ++ text ∧ Blank between.toList ∧
    Written m.2 text.toList

theorem writtenMembers_join {before after : String} (hbefore : Blank before.toList)
    (hafter : Blank after.toList) {ms : List (String × Json)} {lines : List String}
    (h : List.Forall₂ IsMember ms lines) (hne : ms ≠ []) :
    WrittenMembers ms
      ((String.intercalate "," (lines.map (before ++ ·))).toList ++ (after.toList ++ ['\x7d'])) := by
  induction h with
  | nil => exact absurd rfl hne
  | @cons m line ms lines hline hlines ih =>
    obtain ⟨between, text, rfl, hbetween, htext⟩ := hline
    cases hlines with
    | nil =>
      have hlast : WrittenMembers [m] _ := .last hbefore hbetween htext hafter
      simpa [String.intercalate_singleton, toList_quote] using hlast
    | @cons k next ks rest hnext hrest =>
      have hmembers := ih (List.cons_ne_nil k ks)
      have hcons : WrittenMembers (m :: k :: ks) _ := .cons hbefore hbetween htext hmembers
      simpa [String.intercalate_cons_cons, toList_quote] using hcons

theorem written_array_join {before after : String} (hbefore : Blank before.toList)
    (hafter : Blank after.toList) {js : List Json} {lines : List String}
    (h : List.Forall₂ (fun j line => Written j line.toList) js lines) (hne : js ≠ []) :
    Written (.array js)
      ("[" ++ String.intercalate "," (lines.map (before ++ ·)) ++ after ++ "]").toList := by
  have hwritten := Written.array (writtenItems_join hbefore hafter h hne)
  simpa using hwritten

theorem written_object_join {before after : String} (hbefore : Blank before.toList)
    (hafter : Blank after.toList) {ms : List (String × Json)} {lines : List String}
    (h : List.Forall₂ IsMember ms lines) (hne : ms ≠ []) :
    Written (.object ms)
      ("\x7b" ++ String.intercalate "," (lines.map (before ++ ·)) ++ after ++ "\x7d").toList := by
  have hwritten := Written.object (writtenMembers_join hbefore hafter h hne)
  simpa using hwritten

theorem blank_empty : Blank "".toList := fun _ h => nomatch h

mutual

theorem written_compact : ∀ {j : Json}, Exact j → Written j (compact j).toList
  | .null, _ => .wordNull
  | .bool true, _ => .wordTrue
  | .bool false, _ => .wordFalse
  | .integer _, h => .integer h
  | .string s, _ => by
    rw [compact, toList_quote]
    exact .string s
  | .array [], _ => .emptyArray
  | .array (j :: js), h => by
    have hitems : List.Forall₂ _ (j :: js) _ := written_compactItems h
    have hjoin := written_array_join blank_empty blank_empty hitems (List.cons_ne_nil j js)
    simpa [compact] using hjoin
  | .object [], _ => .emptyObject
  | .object (m :: ms), h => by
    have hmembers : List.Forall₂ _ (m :: ms) _ := written_compactMembers h
    have hjoin := written_object_join blank_empty blank_empty hmembers (List.cons_ne_nil m ms)
    simpa [compact] using hjoin

theorem written_compactItems : ∀ {js : List Json}, ExactItems js →
    List.Forall₂ (fun j line => Written j line.toList) js (compactItems js)
  | [], _ => .nil
  | _ :: _, h => .cons (written_compact h.1) (written_compactItems h.2)

theorem written_compactMembers : ∀ {ms : List (String × Json)}, ExactMembers ms →
    List.Forall₂ IsMember ms (compactMembers ms)
  | [], _ => .nil
  | (_, j) :: _, h =>
    .cons ⟨"", compact j, by simp, blank_empty, written_compact h.1⟩ (written_compactMembers h.2)

end

def lineStart (level : Nat) : String := "\n" ++ String.ofList (List.replicate (2 * level) ' ')

theorem blank_lineStart (level : Nat) : Blank (lineStart level).toList := by
  intro c hc
  have hcase : c = '\n' ∨ c = ' ' := by
    simp only [lineStart, String.toList_append, String.toList_ofList, List.mem_append,
      List.mem_replicate] at hc
    rcases hc with hc | ⟨-, hc⟩
    · exact .inl (List.mem_singleton.1 hc)
    · exact .inr hc
  rcases hcase with rfl | rfl <;> decide

mutual

theorem written_indentedAt : ∀ {j : Json} (level : Nat), Exact j →
    Written j (indentedAt level j).toList
  | .null, _, h => written_compact h
  | .bool _, _, h => written_compact h
  | .integer _, _, h => written_compact h
  | .string _, _, h => written_compact h
  | .array [], level, _ => by
    have htext : (indentedAt level (.array [])).toList = ['[', ']'] := by
      simp [indentedAt, indentedItems, block]
    rw [htext]
    exact .emptyArray
  | .array (j :: js), level, h => by
    have hitems : List.Forall₂ _ (j :: js) _ := written_indentedItems (level + 1) h
    rw [indentedAt]
    exact written_array_join (blank_lineStart (level + 1)) (blank_lineStart level) hitems
      (List.cons_ne_nil j js)
  | .object [], level, _ => by
    have htext : (indentedAt level (.object [])).toList = ['\x7b', '\x7d'] := by
      simp [indentedAt, indentedMembers, block]
    rw [htext]
    exact .emptyObject
  | .object (m :: ms), level, h => by
    have hmembers : List.Forall₂ _ (m :: ms) _ := written_indentedMembers (level + 1) h
    rw [indentedAt]
    exact written_object_join (blank_lineStart (level + 1)) (blank_lineStart level) hmembers
      (List.cons_ne_nil m ms)

theorem written_indentedItems : ∀ {js : List Json} (level : Nat), ExactItems js →
    List.Forall₂ (fun j line => Written j line.toList) js (indentedItems level js)
  | [], _, _ => .nil
  | _ :: _, level, h => .cons (written_indentedAt level h.1) (written_indentedItems level h.2)

theorem written_indentedMembers : ∀ {ms : List (String × Json)} (level : Nat), ExactMembers ms →
    List.Forall₂ IsMember ms (indentedMembers level ms)
  | [], _, _ => .nil
  | (name, j) :: _, level, h => by
    have hblank : Blank " ".toList := by simp [Blank, isSpace]
    have hcolon : quote name ++ ": " ++ indentedAt level j =
        quote name ++ ":" ++ " " ++ indentedAt level j := by
      simp [String.append_assoc]
    exact .cons ⟨" ", indentedAt level j, hcolon, hblank, written_indentedAt level h.1⟩
      (written_indentedMembers level h.2)

end

theorem parse?_text {j : Json} (h : Exact j) :
    parse? j.compact = some j ∧ parse? j.indented = some j :=
  ⟨parse?_eq_some_of_written (written_compact h),
    parse?_eq_some_of_written (written_indentedAt 0 h)⟩

end ReleaseHistory.Json
