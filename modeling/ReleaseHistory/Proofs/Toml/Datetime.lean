import ReleaseHistory.Proofs.Time.Timestamp
import ReleaseHistory.Toml.Datetime

/-!
# Reading dates and times of configuration values as written

A date, a time of day, or both with an offset, is read from its text as it was written: each of its
parts is in the range of the format.
-/

namespace ReleaseHistory.Toml

open ReleaseHistory.Text (isDigit value padded)
open Time (Numeral numeral_padded)

theorem Day.make?_eq (d : Day) : make? d.year d.month d.day = some d :=
  dif_pos ⟨d.year_lt, d.month_pos, d.month_le, d.day_pos, d.day_le⟩

theorem TimeOfDay.make?_eq (t : TimeOfDay) :
    make? t.hour t.minute t.second t.nanosecond = some t :=
  dif_pos ⟨t.hour_le, t.minute_le, t.second_le, t.nanosecond_lt⟩

namespace Datetime

theorem number_append {width n : Nat} {cs rest : List Char} (h : Numeral width n cs) :
    number width (cs ++ rest) = some (n, rest) := by
  have htake : (cs ++ rest).take width = cs := by
    rw [← h.length_eq]
    exact List.take_left
  have hdrop : (cs ++ rest).drop width = rest := by
    rw [← h.length_eq]
    exact List.drop_left
  have hall : cs.all isDigit = true := List.all_eq_true.2 h.digits
  simp only [number, htake, hdrop, h.length_eq, hall, h.value_eq, decide_true, Bool.true_and,
    if_true]

theorem number_padded {width n : Nat} {rest : List Char} (hwidth : 0 < width)
    (h : n < 10 ^ width) : number width ((padded width n).toList ++ rest) = some (n, rest) :=
  number_append (numeral_padded hwidth h)

/-! ### Days -/

theorem daysIn_le (year month : Nat) : daysIn year month ≤ 31 := by
  unfold daysIn
  split_ifs <;> decide

theorem toList_dayText (d : Day) :
    (dayText d).toList =
      (padded 4 d.year).toList ++ '-' :: ((padded 2 d.month).toList ++
        '-' :: (padded 2 d.day).toList) := by
  simp [dayText, toString]

theorem readDay_dayText (d : Day) (rest : List Char) :
    readDay ((dayText d).toList ++ rest) = some (d, rest) := by
  have hdays := daysIn_le d.year d.month
  have hmonth : d.month < 10 ^ 2 := Nat.lt_of_le_of_lt d.month_le (by decide)
  have hday : d.day < 10 ^ 2 := Nat.lt_of_le_of_lt (Nat.le_trans d.day_le hdays) (by decide)
  rw [toList_dayText]
  simp only [List.append_assoc, List.cons_append]
  unfold readDay
  simp [number_padded (show 0 < 4 by decide) (show d.year < 10 ^ 4 from d.year_lt),
    number_padded (show 0 < 2 by decide) hmonth, number_padded (show 0 < 2 by decide) hday, char,
    d.make?_eq]

/-! ### Times of day -/

/-- The digits of a fraction without the zeros at its end. -/
def fractionDigits (n : Nat) : List Char :=
  ((padded 9 n).toList.reverse.dropWhile (· = '0')).reverse

theorem value_append_zeros (ds : List Char) (k : Nat) :
    value (ds ++ List.replicate k '0') = value ds * 10 ^ k := by
  have hzeros : ∀ init, Nat.ofDigitChars 10 (List.replicate k '0') init = 10 ^ k * init :=
    fun _ => Nat.ofDigitChars_replicate_zero
  rw [Text.value_eq, Text.value_eq, Nat.ofDigitChars_append, hzeros, Nat.mul_comm]

theorem fractionDigits_append (n : Nat) :
    ∃ k, (padded 9 n).toList = fractionDigits n ++ List.replicate k '0' := by
  have hsplit : (padded 9 n).toList.reverse.takeWhile (· = '0') ++
      (padded 9 n).toList.reverse.dropWhile (· = '0') = (padded 9 n).toList.reverse :=
    List.takeWhile_append_dropWhile
  have hzeros : ∀ c ∈ ((padded 9 n).toList.reverse.takeWhile (· = '0')).reverse, c = '0' := by
    intro c hc
    have hmem := List.mem_takeWhile_imp (List.mem_reverse.1 hc)
    exact of_decide_eq_true hmem
  refine ⟨((padded 9 n).toList.reverse.takeWhile (· = '0')).reverse.length, ?_⟩
  rw [← List.eq_replicate_of_mem hzeros, fractionDigits, ← List.reverse_append, hsplit,
    List.reverse_reverse]

theorem fractionDigits_value {n : Nat} (hn : n ≠ 0) (h : n < 1000000000) :
    fractionDigits n ≠ [] ∧ (∀ c ∈ fractionDigits n, isDigit c = true) ∧
      (fractionDigits n).length ≤ 9 ∧
      value (fractionDigits n) * 10 ^ (9 - (fractionDigits n).length) = n := by
  obtain ⟨k, hk⟩ := fractionDigits_append n
  have hvalue : value (fractionDigits n) * 10 ^ k = n := by
    rw [← value_append_zeros, ← hk, Text.value_padded]
  have hlength : (fractionDigits n).length + k = 9 := by
    have hnine : (padded 9 n).toList.length = 9 := Text.length_padded (by decide) h
    rw [hk, List.length_append, List.length_replicate] at hnine
    exact hnine
  have hdigits : ∀ c ∈ fractionDigits n, isDigit c = true := by
    intro c hc
    have hmem : c ∈ (padded 9 n).toList := by
      rw [hk]
      exact List.mem_append_left _ hc
    exact Text.isDigit_of_mem_padded hmem
  have hne : fractionDigits n ≠ [] := by
    intro hnil
    rw [hnil] at hvalue
    exact hn (by rw [← hvalue]; exact Nat.zero_mul _)
  have hk' : 9 - (fractionDigits n).length = k := by omega
  exact ⟨hne, hdigits, by omega, by rw [hk', hvalue]⟩

theorem toList_timeText (t : TimeOfDay) :
    (timeText t).toList =
      (padded 2 t.hour).toList ++ ':' :: ((padded 2 t.minute).toList ++
        ':' :: ((padded 2 t.second).toList ++
          if t.nanosecond = 0 then [] else '.' :: fractionDigits t.nanosecond)) := by
  unfold timeText
  split_ifs <;> simp [fractionDigits, toString]

/-- What can stand after a time of day. -/
def EndsTime (rest : List Char) : Prop := ∀ c ∈ rest.head?, isDigit c = false ∧ c ≠ '.'

theorem readTime_timeText (t : TimeOfDay) {rest : List Char} (hrest : EndsTime rest) :
    readTime ((timeText t).toList ++ rest) = some (t, rest) := by
  have hhour : t.hour < 10 ^ 2 := Nat.lt_of_le_of_lt t.hour_le (by decide)
  have hminute : t.minute < 10 ^ 2 := Nat.lt_of_le_of_lt t.minute_le (by decide)
  have hsecond : t.second < 10 ^ 2 := Nat.lt_of_le_of_lt t.second_le (by decide)
  have htwo : 0 < 2 := by decide
  rw [toList_timeText]
  simp only [List.append_assoc, List.cons_append]
  unfold readTime
  simp only [number_padded htwo hhour, number_padded htwo hminute, number_padded htwo hsecond, char,
    Option.bind_eq_bind, Option.bind_some, if_true]
  have hmade := t.make?_eq
  by_cases hnano : t.nanosecond = 0
  · have hpoint : ∀ cs, rest ≠ '.' :: cs := by
      rintro cs rfl
      exact (hrest '.' rfl).2 rfl
    rw [hnano] at hmade
    simp only [hnano, if_true, List.nil_append, hmade, Option.map_some]
  · obtain ⟨hne, hdigits, hlength, hvalue⟩ := fractionDigits_value hnano t.nanosecond_lt
    obtain ⟨htake, hdrop⟩ := Text.takeWhile_digits hdigits fun c hc => (hrest c hc).1
    have hempty : (fractionDigits t.nanosecond).isEmpty = false := by simpa using hne
    simp only [hnano, if_false, List.cons_append, htake, hdrop, hempty, Bool.false_eq_true,
      List.take_of_length_le hlength, Text.powerOfTen, Nat.pow_eq, hvalue, hmade, Option.map_some]

/-! ### Offsets -/

theorem readOffset_signed {sign : Char} {m : Nat} (hsign : sign = '+' ∨ sign = '-')
    (h : m ≤ 24 * 60) :
    readOffset (sign :: ((padded 2 (m / 60)).toList ++ ':' :: (padded 2 (m % 60)).toList)) =
      (Offset.make? (if sign = '+' then m else -(m : Int))).map fun o => (some o, []) := by
  have hhours : number 2 ((padded 2 (m / 60)).toList ++ ':' :: (padded 2 (m % 60)).toList) =
      some (m / 60, ':' :: (padded 2 (m % 60)).toList) :=
    number_padded (by decide) (by omega)
  have hminutes : number 2 (padded 2 (m % 60)).toList = some (m % 60, []) := by
    have hread : number 2 ((padded 2 (m % 60)).toList ++ []) = some (m % 60, []) :=
      number_padded (by decide) (by omega)
    rwa [List.append_nil] at hread
  have htotal : (60 * ((m / 60 : Nat) : Int) + ((m % 60 : Nat) : Int)) = m := by omega
  rcases hsign with rfl | rfl <;>
  · simp only [readOffset, Char.reduceEq, decide_false, decide_true, Bool.or_self, Bool.or_false,
      Bool.or_true, Bool.not_true, Bool.false_eq_true, if_false, if_true, hhours, hminutes, char,
      Option.bind_eq_bind, Option.bind_some, htotal]

theorem toList_offsetText (n : Int) (h : n.natAbs ≤ 24 * 60) :
    (offsetText (.minutes n h)).toList =
      (if n < 0 then '-' else '+') :: ((padded 2 (n.natAbs / 60)).toList ++
        ':' :: (padded 2 (n.natAbs % 60)).toList) := by
  by_cases hn : n < 0 <;> simp [offsetText, hn]

theorem readOffset_offsetText (o : Offset) : readOffset (offsetText o).toList = some (some o, []) := by
  cases o with
  | utc => rfl
  | minutes n h =>
    have hsigned : (if (if n < 0 then '-' else '+') = '+' then (n.natAbs : Int) else -n.natAbs) = n := by
      split_ifs with hn hplus <;> first | omega | exact absurd hplus (by decide) | exact absurd rfl ‹_›
    rw [toList_offsetText, readOffset_signed (by split_ifs <;> simp) h, hsigned, Offset.make?, dif_pos h,
      Option.map_some]

theorem endsTime_offsetText (o : Offset) : EndsTime (offsetText o).toList := by
  cases o with
  | utc => rintro c ⟨⟩; decide
  | minutes n h =>
    by_cases hsign : n < 0 <;> simp [EndsTime, offsetText, hsign] <;> decide

/-! ### All of it -/

theorem timeText_colon (t : TimeOfDay) : (timeText t).toList[2]? = some ':' := by
  have hlength : (padded 2 t.hour).toList.length = 2 :=
    Text.length_padded (by decide) (Nat.lt_of_le_of_lt t.hour_le (by decide))
  rw [toList_timeText, List.getElem?_append_right (Nat.le_of_eq hlength), hlength]
  rfl

theorem dayText_no_colon (d : Day) (rest : List Char) :
    ((dayText d).toList ++ rest)[2]? ≠ some ':' := by
  have hlength : (padded 4 d.year).toList.length = 4 := Text.length_padded (by decide) d.year_lt
  intro hcolon
  rw [toList_dayText, List.append_assoc, List.getElem?_append_left (by omega)] at hcolon
  have hdigit := Text.isDigit_of_mem_padded (List.mem_of_getElem? hcolon)
  exact absurd hdigit (by decide)

theorem ofChars_timeText (t : TimeOfDay) : ofChars (timeText t).toList = some (.ofTime t) := by
  have hends : EndsTime [] := fun _ hc => nomatch hc
  have hread := readTime_timeText t hends
  rw [List.append_nil] at hread
  simp [ofChars, timeText_colon, hread]

theorem ofChars_dayText (d : Day) : ofChars (dayText d).toList = some (.ofDay d) := by
  have hcolon := dayText_no_colon d []
  have hread := readDay_dayText d []
  rw [List.append_nil] at hcolon hread
  simp [ofChars, hcolon, hread]

theorem readOffset_of_option (offset : Option Offset) :
    readOffset ((offset.map offsetText).getD "").toList = some (offset, []) := by
  cases offset with
  | none => rfl
  | some o => exact readOffset_offsetText o

theorem ofChars_dayText_timeText (d : Day) (t : TimeOfDay) (offset : Option Offset) :
    ofChars ((dayText d).toList ++ 'T' :: ((timeText t).toList ++
        ((offset.map offsetText).getD "").toList)) = some (.ofBoth d t offset) := by
  have hends : EndsTime ((offset.map offsetText).getD "").toList := by
    cases offset with
    | none => exact fun _ hc => nomatch hc
    | some o => exact endsTime_offsetText o
  have htime := readTime_timeText t hends
  have hoffset := readOffset_of_option offset
  simp [ofChars, dayText_no_colon, readDay_dayText, htime, hoffset]

theorem parse?_text (d : Datetime) : parse? d.text = some d := by
  cases d with
  | ofDay d => exact ofChars_dayText d
  | ofTime t => exact ofChars_timeText t
  | ofBoth d t offset => simpa [text, parse?] using ofChars_dayText_timeText d t offset

end Datetime

end ReleaseHistory.Toml
