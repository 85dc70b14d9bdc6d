import ReleaseHistory.Proofs.Operation
import ReleaseHistory.Proofs.Text.Digits
import ReleaseHistory.Proofs.Time.Calendar
import ReleaseHistory.Proofs.Time.Instant

/-!
# Writing and reading timestamps

For each part of the RFC 3339 form there is one lemma that says which texts it is read from. What
reading gives has whole minutes of offset, and a leap second only at the end of a minute. Such a
timestamp is written so that it reads back as the same second, as long as its year has four digits;
a text with any other year cannot be read.
-/

namespace ReleaseHistory.Time

open Text (isDigit value padded digitValue)

/-! ### Numbers of a fixed width -/

/-- Characters that write a number with exactly so many digits. -/
structure Numeral (width n : Nat) (cs : List Char) : Prop where
  length_eq : cs.length = width
  digits : ∀ c ∈ cs, isDigit c = true
  value_eq : value cs = n

theorem Numeral.lt {width n : Nat} {cs : List Char} (h : Numeral width n cs) : n < 10 ^ width := by
  rw [← h.value_eq, ← h.length_eq]
  exact Text.value_lt h.digits

theorem numeral_padded {width n : Nat} (hwidth : 0 < width) (h : n < 10 ^ width) :
    Numeral width n (padded width n).toList where
  length_eq := Text.length_padded hwidth h
  digits _ hc := Text.isDigit_of_mem_padded hc
  value_eq := Text.value_padded width n

theorem byteLength_cons (c : Char) (cs : List Char) :
    byteLength (c :: cs) = c.utf8Size + byteLength cs := by
  have h : ∀ (ds : List Char) (n : Nat),
      ds.foldl (fun n c => n + c.utf8Size) n = n + byteLength ds := by
    intro ds
    unfold byteLength
    induction ds with
    | nil => simp
    | cons d ds ih =>
      intro n
      rw [List.foldl_cons, List.foldl_cons, ih, ih (0 + d.utf8Size)]
      omega
  rw [byteLength, List.foldl_cons, h]
  omega

theorem length_le_byteLength (cs : List Char) : cs.length ≤ byteLength cs := by
  induction cs with
  | nil => simp
  | cons c cs ih =>
    have := c.utf8Size_pos
    rw [byteLength_cons, List.length_cons]
    omega

theorem byteLength_digits {cs : List Char} (h : ∀ c ∈ cs, isDigit c = true) :
    byteLength cs = cs.length := by
  induction cs with
  | nil => rfl
  | cons c cs ih =>
    have hc : c.utf8Size = 1 := by
      have hle := (Text.isDigit_iff.1 (h c (List.mem_cons_self ..))).2
      rw [Char.utf8Size_eq_one_iff, UInt32.le_iff_toNat_le]
      exact Nat.le_trans hle (show 57 ≤ 127 by decide)
    rw [byteLength_cons, hc, ih fun d hd => h d (List.mem_cons_of_mem c hd), List.length_cons]
    omega

theorem readNumber_eq_ok {width n : Nat} {cs rest : List Char} :
    readNumber width cs = .ok (n, rest) ↔ ∃ ds, Numeral width n ds ∧ cs = ds ++ rest := by
  unfold readNumber
  constructor
  · intro h
    split at h
    · cases h
    rename_i hbytes
    split at h
    · rename_i hdigits
      obtain ⟨rfl, rfl⟩ := Prod.mk.inj (Except.ok.inj h)
      rw [List.all_eq_true] at hdigits
      refine ⟨cs.take width, ⟨?_, hdigits, rfl⟩, (List.take_append_drop width cs).symm⟩
      -- digits take one byte each, so a text with enough bytes has enough of them
      by_contra hlength
      rw [List.length_take] at hlength
      have hshort : cs.length < width := by omega
      rw [List.take_of_length_le (Nat.le_of_lt hshort)] at hdigits
      rw [byteLength_digits hdigits] at hbytes
      omega
    · cases h
  · rintro ⟨ds, ⟨rfl, hdigits, rfl⟩, rfl⟩
    have hbytes := length_le_byteLength (ds ++ rest)
    rw [List.length_append] at hbytes
    rw [if_neg (by omega), List.take_left, List.drop_left,
      if_pos (List.all_eq_true.2 hdigits)]

theorem readOneOf_eq_ok {members cs rest : List Char} :
    readOneOf members cs = .ok rest ↔ ∃ c ∈ members, cs = c :: rest := by
  cases cs with
  | nil => simp [readOneOf]
  | cons c cs =>
    by_cases h : c ∈ members
    · simp [readOneOf, h]
    · simp only [readOneOf, List.contains_iff_mem, h, if_false, reduceCtorEq, false_iff]
      rintro ⟨d, hd, heq⟩
      exact h ((List.cons.inj heq).1 ▸ hd)

/-! ### Reading -/

theorem readDate_eq_ok {d : Date} {cs rest : List Char} :
    readDate cs = .ok (d, rest) ↔ d.isValid = true ∧ ∃ (year : Nat) (ys ms ds : List Char),
      d.year = year ∧ Numeral 4 year ys ∧ Numeral 2 d.month ms ∧ Numeral 2 d.day ds ∧
        cs = ys ++ '-' :: (ms ++ '-' :: (ds ++ rest)) := by
  unfold readDate
  simp only [Except.bind_eq_ok, Prod.exists, readNumber_eq_ok, readOneOf_eq_ok,
    List.mem_singleton, exists_eq_left]
  constructor
  · rintro ⟨year, _, ⟨ys, hys, rfl⟩, _, rfl, month, _, ⟨ms, hms, rfl⟩, _, rfl, day, _,
      ⟨ds, hds, rfl⟩, h⟩
    split at h
    · rename_i hvalid
      obtain ⟨rfl, rfl⟩ := Prod.mk.inj (Except.pure_eq_ok.1 h)
      exact ⟨hvalid, year, ys, ms, ds, rfl, hys, hms, hds, rfl⟩
    · cases h
  · rintro ⟨hvalid, year, ys, ms, ds, hyear, hys, hms, hds, rfl⟩
    obtain ⟨_, month, day⟩ := d
    obtain rfl : _ = (year : Int) := hyear
    refine ⟨year, _, ⟨ys, hys, rfl⟩, _, rfl, month, _, ⟨ms, hms, rfl⟩, _, rfl, day, _,
      ⟨ds, hds, rfl⟩, ?_⟩
    rw [if_pos hvalid]
    rfl

theorem readOffsetMinutes_eq_ok {n : Nat} {cs rest : List Char} :
    readOffsetMinutes cs = .ok (n, rest) ↔ n ≤ 59 ∧ ∃ ms, Numeral 2 n ms ∧ cs = ms ++ rest := by
  unfold readOffsetMinutes
  constructor
  · intro h
    split at h
    · cases h
    split at h
    · rename_i m k after _
      split at h
      · rename_i hdigits
        split at h
        · rename_i hm
          obtain ⟨rfl, rfl⟩ := Prod.mk.inj (Except.ok.inj h)
          rw [Bool.and_eq_true] at hdigits
          have hk := Text.digitValue_lt hdigits.2
          refine ⟨by omega, [m, k], ⟨rfl, by simpa using hdigits, ?_⟩, rfl⟩
          simp [value]
        · cases h
      · cases h
    · cases h
  · rintro ⟨hn, ms, ⟨hlength, hdigits, rfl⟩, rfl⟩
    obtain ⟨m, k, rfl⟩ := List.length_eq_two.1 hlength
    have hbytes := length_le_byteLength ([m, k] ++ rest)
    rw [List.length_append, hlength] at hbytes
    rw [if_neg (by omega)]
    have hm : isDigit m = true := hdigits m (by simp)
    have hk : isDigit k = true := hdigits k (by simp)
    have hvalue : value [m, k] = 10 * digitValue m + digitValue k := by simp [value]
    simp only [List.cons_append, List.nil_append, hm, hk, Bool.and_self, if_true]
    rw [if_pos (by omega), hvalue]

/-- The sign of an offset, as it is read. -/
def signed (sign : Char) (n : Nat) : Int := if sign = '+' then Int.ofNat n else -Int.ofNat n

theorem readOffset_signed {sign : Char} {offset : Int} {cs rest : List Char}
    (hsign : sign = '+' ∨ sign = '-' ∨ sign = '\u2212') :
    readOffset (sign :: cs) = .ok (offset, rest) ↔ ∃ (hours minutes : Nat) (hs ms : List Char),
      Numeral 2 hours hs ∧ Numeral 2 minutes ms ∧ minutes ≤ 59 ∧
        3600 * hours + 60 * minutes ≤ 86340 ∧
        offset = signed sign (3600 * hours + 60 * minutes) ∧ cs = hs ++ ':' :: (ms ++ rest) := by
  have hletter : (decide (sign = 'Z') || decide (sign = 'z')) = false := by
    rcases hsign with rfl | rfl | rfl <;> rfl
  have hbool : (decide (sign = '+') || decide (sign = '-') || decide (sign = '\u2212')) = true := by
    rcases hsign with rfl | rfl | rfl <;> rfl
  simp only [readOffset, hletter, hbool, Bool.not_true, Bool.false_eq_true, if_false,
    Except.bind_eq_ok, Prod.exists, readNumber_eq_ok, readOneOf_eq_ok, readOffsetMinutes_eq_ok,
    List.mem_singleton, exists_eq_left]
  constructor
  · rintro ⟨hours, _, ⟨hs, hhours, rfl⟩, _, rfl, minutes, _, ⟨hle, ms, hminutes, rfl⟩, h⟩
    split at h
    · rename_i hbound
      obtain ⟨rfl, rfl⟩ := Prod.mk.inj (Except.pure_eq_ok.1 h)
      exact ⟨hours, minutes, hs, ms, hhours, hminutes, hle, hbound, rfl, rfl⟩
    · cases h
  · rintro ⟨hours, minutes, hs, ms, hhours, hminutes, hle, hbound, rfl, rfl⟩
    refine ⟨hours, _, ⟨hs, hhours, rfl⟩, _, rfl, minutes, _, ⟨hle, ms, hminutes, rfl⟩, ?_⟩
    rw [if_pos hbound]
    rfl

theorem readOffset_eq_ok {offset : Int} {cs rest : List Char} :
    readOffset cs = .ok (offset, rest) ↔
      (cs = 'Z' :: rest ∨ cs = 'z' :: rest) ∧ offset = 0 ∨
        ∃ (sign : Char) (hours minutes : Nat) (hs ms : List Char),
          (sign = '+' ∨ sign = '-' ∨ sign = '\u2212') ∧ Numeral 2 hours hs ∧
            Numeral 2 minutes ms ∧ minutes ≤ 59 ∧ 3600 * hours + 60 * minutes ≤ 86340 ∧
            offset = signed sign (3600 * hours + 60 * minutes) ∧
            cs = sign :: (hs ++ ':' :: (ms ++ rest)) := by
  constructor
  · intro h
    cases cs with
    | nil => simp [readOffset] at h
    | cons c cs =>
      by_cases hsign : c = '+' ∨ c = '-' ∨ c = '\u2212'
      · obtain ⟨hours, minutes, hs, ms, hhours, hminutes, hle, hbound, hoffset, rfl⟩ :=
          (readOffset_signed hsign).1 h
        exact Or.inr ⟨c, hours, minutes, hs, ms, hsign, hhours, hminutes, hle, hbound, hoffset, rfl⟩
      · unfold readOffset at h
        simp only [Bool.or_eq_true, decide_eq_true_eq] at h
        split at h
        · rename_i hz
          obtain ⟨rfl, rfl⟩ := Prod.mk.inj (Except.pure_eq_ok.1 h)
          rcases hz with rfl | rfl
          · exact Or.inl ⟨Or.inl rfl, rfl⟩
          · exact Or.inl ⟨Or.inr rfl, rfl⟩
        · rw [if_pos (by simpa [and_assoc] using hsign)] at h
          cases h
  · rintro (⟨rfl | rfl, rfl⟩ | ⟨sign, hours, minutes, hs, ms, hsign, h, h', hle, hbound, ho, rfl⟩)
    · rfl
    · rfl
    · exact (readOffset_signed hsign).2 ⟨hours, minutes, hs, ms, h, h', hle, hbound, ho, rfl⟩

theorem readFraction_lt {n : Nat} {cs rest : List Char} (h : readFraction cs = .ok (n, rest)) :
    n < nanosPerSecond := by
  have hdigits : ∀ ds : List Char, (∀ c ∈ ds, isDigit c = true) → ds.length ≤ 9 →
      value ds * Text.powerOfTen (9 - ds.length) < nanosPerSecond := by
    intro ds hds hlength
    calc value ds * 10 ^ (9 - ds.length)
        < 10 ^ ds.length * 10 ^ (9 - ds.length) :=
          Nat.mul_lt_mul_of_pos_right (Text.value_lt hds) (Nat.pow_pos (by decide))
      _ = 10 ^ 9 := by rw [← Nat.pow_add, Nat.add_sub_cancel' hlength]
  unfold readFraction at h
  split at h
  · cases h
  · split at h
    · obtain ⟨rfl, -⟩ := Prod.mk.inj (Except.ok.inj h)
      refine hdigits _ (fun c hc => ?_) (List.length_take_le ..)
      exact List.all_eq_true.1 List.all_takeWhile c (List.mem_of_mem_take hc)
    · cases h

/-- Reads a fraction of a second where there is one. -/
def readPastSecond : List Char → Except Malformed (Nat × List Char)
  | '.' :: cs => readFraction cs
  | cs => .ok (0, cs)

theorem readPastSecond_bind {α : Type} (cs : List Char)
    (f : Nat × List Char → Except Malformed α) :
    readPastSecond cs >>= f = match cs with
      | '.' :: cs => readFraction cs >>= f
      | cs => .ok (0, cs) >>= f := by
  unfold readPastSecond
  split <;> rfl

theorem readPastSecond_of_ne {c : Char} (h : c ≠ '.') (cs : List Char) :
    readPastSecond (c :: cs) = .ok (0, c :: cs) := by
  unfold readPastSecond
  split
  · rename_i heq
    exact absurd (List.cons.inj heq).1 h
  · rfl

theorem readPastSecond_lt {n : Nat} {cs rest : List Char}
    (h : readPastSecond cs = .ok (n, rest)) : n < nanosPerSecond := by
  unfold readPastSecond at h
  split at h
  · exact readFraction_lt h
  · obtain ⟨rfl, -⟩ := Prod.mk.inj (Except.ok.inj h)
    decide

namespace Timestamp

/-- There is no time of day beyond the last minute, and in each minute at most a leap second. -/
theorem ofTime_eq_some {hour minute second fraction daySecond nanos : Nat} :
    ofTime hour minute second fraction = some (daySecond, nanos) ↔
      hour ≤ 23 ∧ minute ≤ 59 ∧
        (second ≤ 59 ∧ daySecond = 3600 * hour + 60 * minute + second ∧ nanos = fraction ∨
          second = 60 ∧ daySecond = 3600 * hour + 60 * minute + 59 ∧
            nanos = nanosPerSecond + fraction) := by
  unfold ofTime
  simp only [Bool.and_eq_true, decide_eq_true_eq]
  by_cases hleap : second = 60
  · subst hleap
    by_cases h : hour ≤ 23 ∧ minute ≤ 59
    · simp [h, eq_comm]
    · rw [if_neg (by omega)]
      simp only [reduceCtorEq, false_iff]
      omega
  · by_cases h : (hour ≤ 23 ∧ minute ≤ 59) ∧ second ≤ 60
    · rw [if_pos h, if_neg hleap, Option.some.injEq, Prod.mk.injEq]
      omega
    · rw [if_neg h]
      simp only [reduceCtorEq, false_iff]
      omega

/-- The end of reading, when the date and the time of day but for a fraction have been read. -/
def ofRest (date : Date) (hour minute second : Nat) (cs : List Char) :
    Except Malformed Timestamp := do
  let (fraction, cs) ← readPastSecond cs
  match ofTime hour minute second fraction with
  | none => throw .outOfRange
  | some (daySecond, nanos) =>
    let (offset, cs) ← readOffset cs
    if !cs.isEmpty then throw .trailing
    return ⟨86400 * date.toDays + daySecond - offset, nanos, offset⟩

theorem ofChars_eq (cs : List Char) :
    ofChars cs = if byteLength cs < plainLength then .error .tooShort else (do
      let (date, cs) ← readDate cs
      let cs ← readOneOf ['T', 't', ' '] cs
      let (hour, cs) ← readNumber 2 cs
      let cs ← readOneOf [':'] cs
      let (minute, cs) ← readNumber 2 cs
      let cs ← readOneOf [':'] cs
      let (second, cs) ← readNumber 2 cs
      ofRest date hour minute second cs) := by
  simp only [ofRest, readPastSecond_bind]
  rfl

theorem ofRest_eq_ok {date : Date} {hour minute second : Nat} {cs : List Char} {t : Timestamp} :
    ofRest date hour minute second cs = .ok t ↔ ∃ fraction rest daySecond nanos offset,
      readPastSecond cs = .ok (fraction, rest) ∧
        ofTime hour minute second fraction = some (daySecond, nanos) ∧
        readOffset rest = .ok (offset, []) ∧
        t = ⟨86400 * date.toDays + daySecond - offset, nanos, offset⟩ := by
  simp only [ofRest, Except.bind_eq_ok, Prod.exists]
  constructor
  · rintro ⟨fraction, rest, hfraction, h⟩
    split at h
    · cases h
    rename_i daySecond nanos htime
    obtain ⟨⟨offset, after⟩, hoffset, h⟩ := Except.bind_eq_ok.1 h
    cases after with
    | nil => exact ⟨fraction, rest, daySecond, nanos, offset, hfraction, htime, hoffset,
        Except.pure_eq_ok.1 h⟩
    | cons c cs => cases h
  · rintro ⟨fraction, rest, daySecond, nanos, offset, hfraction, htime, hoffset, rfl⟩
    refine ⟨fraction, rest, hfraction, ?_⟩
    rw [htime]
    exact Except.bind_eq_ok.2 ⟨(offset, []), hoffset, rfl⟩

/-- A text is read as a timestamp if its parts are; there are enough bytes in them. -/
theorem ofChars_eq_ok {cs : List Char} {t : Timestamp} :
    ofChars cs = .ok t ↔ ∃ date r₁, readDate cs = .ok (date, r₁) ∧
      ∃ separator ∈ ['T', 't', ' '], ∃ hour minute second hs ms ss r₂,
        Numeral 2 hour hs ∧ Numeral 2 minute ms ∧ Numeral 2 second ss ∧
        r₁ = separator :: (hs ++ ':' :: (ms ++ ':' :: (ss ++ r₂))) ∧
        ofRest date hour minute second r₂ = .ok t := by
  rw [ofChars_eq]
  by_cases hlength : byteLength cs < plainLength
  · rw [if_pos hlength]
    constructor
    · rintro ⟨⟩
    · rintro ⟨date, _, hdate, separator, -, hour, minute, second, hs, ms, ss, r₂, hhour, hminute,
        hsecond, rfl, -⟩
      obtain ⟨-, year, ys, mos, ds, -, hys, hmos, hds, rfl⟩ := readDate_eq_ok.1 hdate
      have hbytes := Nat.lt_of_le_of_lt (length_le_byteLength _) hlength
      simp only [List.length_append, List.length_cons, hys.length_eq, hmos.length_eq,
        hds.length_eq, hhour.length_eq, hminute.length_eq, hsecond.length_eq, plainLength] at hbytes
      omega
  · simp only [if_neg hlength, Except.bind_eq_ok, Prod.exists, readNumber_eq_ok, readOneOf_eq_ok,
      List.mem_singleton, exists_eq_left]
    constructor
    · rintro ⟨date, _, hdate, _, ⟨separator, hsep, rfl⟩, hour, _, ⟨hs, hhour, rfl⟩, _, rfl, minute, _,
        ⟨ms, hminute, rfl⟩, _, rfl, second, r₂, ⟨ss, hsecond, rfl⟩, h⟩
      exact ⟨date, _, hdate, separator, hsep, hour, minute, second, hs, ms, ss, r₂, hhour, hminute,
        hsecond, rfl, h⟩
    · rintro ⟨date, _, hdate, separator, hsep, hour, minute, second, hs, ms, ss, r₂, hhour, hminute,
        hsecond, rfl, h⟩
      exact ⟨date, _, hdate, _, ⟨separator, hsep, rfl⟩, hour, _, ⟨hs, hhour, rfl⟩, _, rfl, minute, _,
        ⟨ms, hminute, rfl⟩, _, rfl, second, r₂, ⟨ss, hsecond, rfl⟩, h⟩

/-! ### What reading gives -/

/-- Timestamps as they are read: the offset has whole minutes and is less than a day, and a leap
second is the last one of a minute. -/
structure Regular (t : Timestamp) : Prop where
  offset_le : t.offset.natAbs ≤ 86340
  offset_minutes : t.offset % 60 = 0
  nanos_lt : t.nanos < 2 * nanosPerSecond
  leap : nanosPerSecond ≤ t.nanos → t.localSecond % 60 = 59

theorem signed_bounds {sign : Char} {n : Nat} : (signed sign n).natAbs = n := by
  unfold signed
  split <;> simp

/-- What a clock shows when it shows a date and a second of the day. -/
theorem local_of_shown {date : Date} {daySecond nanos : Nat} {offset : Int}
    (hvalid : date.isValid = true) (h : daySecond < 86400) :
    localDate ⟨86400 * date.toDays + daySecond - offset, nanos, offset⟩ = date ∧
      localSecond ⟨86400 * date.toDays + daySecond - offset, nanos, offset⟩ = daySecond := by
  simp only [localDate, localSecond, Int.sub_add_cancel]
  constructor
  · rw [show (86400 * date.toDays + (daySecond : Int)) / 86400 = date.toDays by omega,
      Date.ofDays_toDays hvalid]
  · omega

theorem regular_of_ofChars {cs : List Char} {t : Timestamp} (h : ofChars cs = .ok t) :
    t.Regular ∧ 0 ≤ t.localDate.year ∧ t.localDate.year ≤ 9999 := by
  obtain ⟨date, _, hdate, -, -, hour, minute, second, -, -, -, _, hhour, hminute, hsecond, -,
    hrest⟩ := ofChars_eq_ok.1 h
  obtain ⟨hvalid, year, _, -, -, hyear, hys, -, -, -⟩ := readDate_eq_ok.1 hdate
  obtain ⟨fraction, _, daySecond, nanos, offset, hfraction, htime, hoffset, rfl⟩ :=
    ofRest_eq_ok.1 hrest
  have hfraction := readPastSecond_lt hfraction
  have htime := ofTime_eq_some.1 htime
  have hlocal := @local_of_shown date daySecond nanos offset hvalid (by omega)
  have hyear' := hys.lt
  have hoff : offset.natAbs ≤ 86340 ∧ offset % 60 = 0 := by
    rcases readOffset_eq_ok.1 hoffset with
      ⟨-, rfl⟩ | ⟨sign, hours, minutes, -, -, -, -, -, -, hbound, rfl, -⟩
    · decide
    · have hsize := @signed_bounds sign (3600 * hours + 60 * minutes)
      omega
  refine ⟨⟨hoff.1, hoff.2, ?_, ?_⟩, ?_, ?_⟩
  · simp only
    omega
  · intro hleap
    rw [hlocal.2]
    simp only at hleap
    omega
  · rw [hlocal.1]
    omega
  · rw [hlocal.1]
    omega

/-- Some seconds later a timestamp is as regular, and not in a leap second any more. -/
theorem Regular.addSeconds {t : Timestamp} (h : t.Regular) (k : Nat) : (t.addSeconds k).Regular := by
  unfold Timestamp.addSeconds
  have hnanos := h.nanos_lt
  by_cases hk : k = 0
  · rw [if_pos hk]
    exact h
  · rw [if_neg hk]
    refine ⟨h.offset_le, h.offset_minutes, ?_, ?_⟩
    · simp only
      split <;> omega
    · intro hleap
      simp only at hleap
      split at hleap <;> omega

/-! ### Writing -/

theorem toList_text (t : Timestamp) :
    t.text.toList = (yearText t.localDate.year).toList ++
      '-' :: ((padded 2 t.localDate.month).toList ++ '-' :: ((padded 2 t.localDate.day).toList ++
      'T' :: ((padded 2 (t.localSecond / 3600)).toList ++
      ':' :: ((padded 2 (t.localSecond / 60 % 60)).toList ++
      ':' :: ((padded 2 (t.localSecond % 60 + if t.nanos < nanosPerSecond then 0 else 1)).toList ++
        (offsetText t.offset).toList))))) := by
  simp [text, toString, String.toList_append]

theorem toList_offsetText (offset : Int) :
    (offsetText offset).toList = (if offset < 0 then '-' else '+') ::
      ((padded 2 (offset.natAbs / 60 / 60)).toList ++
      ':' :: (padded 2 (offset.natAbs / 60 % 60)).toList) := by
  unfold offsetText
  split <;> simp [String.toList_append]

theorem readOffset_offsetText {offset : Int} (hle : offset.natAbs ≤ 86340)
    (hminutes : offset % 60 = 0) :
    readOffset (offsetText offset).toList = .ok (offset, []) := by
  rw [toList_offsetText, readOffset_eq_ok]
  refine Or.inr ⟨_, offset.natAbs / 60 / 60, offset.natAbs / 60 % 60, _, _, ?_,
    numeral_padded (by decide) ?_, numeral_padded (by decide) ?_, ?_, ?_, ?_,
    by rw [List.append_nil]⟩
  · split <;> simp
  · omega
  · omega
  · omega
  · omega
  · have hsum : 3600 * (offset.natAbs / 60 / 60) + 60 * (offset.natAbs / 60 % 60) =
        offset.natAbs := by omega
    rw [hsum]
    by_cases hneg : offset < 0
    · rw [if_pos hneg]
      show offset = -(offset.natAbs : Int)
      omega
    · rw [if_neg hneg]
      show offset = (offset.natAbs : Int)
      omega

theorem readDate_dateText {d : Date} (hvalid : d.isValid = true) (hpos : 0 ≤ d.year)
    (hyear : d.year ≤ 9999) (rest : List Char) :
    readDate ((yearText d.year).toList ++ '-' :: ((padded 2 d.month).toList ++
      '-' :: ((padded 2 d.day).toList ++ rest))) = .ok (d, rest) := by
  have hbounds := Date.isValid_bounds hvalid
  have htext : yearText d.year = padded 4 d.year.toNat := by
    unfold yearText
    rw [if_neg (by omega), if_pos hyear]
  rw [htext, readDate_eq_ok]
  refine ⟨hvalid, d.year.toNat, _, _, _, by omega, numeral_padded (by decide) ?_,
    numeral_padded (by decide) ?_, numeral_padded (by decide) ?_, rfl⟩
  · omega
  · omega
  · omega

/-- What is left of a timestamp when it is written: a leap second keeps its place. -/
def whole (t : Timestamp) : Timestamp :=
  { t with nanos := if t.nanos < nanosPerSecond then 0 else nanosPerSecond }

theorem localSecond_lt (t : Timestamp) : t.localSecond < 86400 := by
  unfold localSecond
  omega

theorem seconds_eq (t : Timestamp) :
    t.seconds = 86400 * t.localDate.toDays + t.localSecond - t.offset := by
  rw [localDate, (Date.isValid_ofDays _).2, localSecond]
  omega

/-- The time of day reads back, a leap second as the sixtieth of its minute. -/
theorem ofTime_localSecond {t : Timestamp} (h : t.Regular) :
    ofTime (t.localSecond / 3600) (t.localSecond / 60 % 60)
        (t.localSecond % 60 + if t.nanos < nanosPerSecond then 0 else 1) 0 =
      some (t.localSecond, t.whole.nanos) := by
  have hlt := t.localSecond_lt
  rw [ofTime_eq_some]
  refine ⟨by omega, by omega, ?_⟩
  unfold whole
  simp only
  by_cases hnanos : t.nanos < nanosPerSecond
  · rw [if_pos hnanos, if_pos hnanos]
    exact Or.inl ⟨by omega, by omega, rfl⟩
  · have hleap := h.leap (by omega)
    rw [if_neg hnanos, if_neg hnanos]
    exact Or.inr ⟨by omega, by omega, rfl⟩

/-- A timestamp with a year of four digits reads back, but for the fraction of its second. -/
theorem parse_text {t : Timestamp} (h : t.Regular) (hpos : 0 ≤ t.localDate.year)
    (hyear : t.localDate.year ≤ 9999) : parse t.text = .ok t.whole := by
  have hvalid : t.localDate.isValid = true := (Date.isValid_ofDays _).1
  have hlt := t.localSecond_lt
  have hsecond : t.localSecond % 60 + (if t.nanos < nanosPerSecond then 0 else 1) < 10 ^ 2 := by
    split <;> omega
  unfold parse
  rw [toList_text, ofChars_eq_ok]
  refine ⟨_, _, readDate_dateText hvalid hpos hyear _, 'T', by simp, _, _, _, _, _, _, _,
    numeral_padded (by decide) (show t.localSecond / 3600 < 10 ^ 2 by omega),
    numeral_padded (by decide) (show t.localSecond / 60 % 60 < 10 ^ 2 by omega),
    numeral_padded (by decide) hsecond, rfl, ?_⟩
  refine ofRest_eq_ok.2 ⟨0, _, t.localSecond, t.whole.nanos, t.offset, ?_, ofTime_localSecond h,
    readOffset_offsetText h.offset_le h.offset_minutes, ?_⟩
  · rw [toList_offsetText]
    exact readPastSecond_of_ne (by split <;> decide) _
  · rw [← seconds_eq]
    rfl

theorem parse_text_of_late {t u : Timestamp} (hyear : 9999 < t.localDate.year) :
    parse t.text ≠ .ok u := by
  intro h
  obtain ⟨date, _, hdate, -⟩ := ofChars_eq_ok.1 h
  obtain ⟨-, year, ys, _, _, -, hys, -, -, heq⟩ := readDate_eq_ok.1 hdate
  rw [toList_text, yearText, if_neg (by omega), if_neg (by omega), String.toList_append] at heq
  cases ys with
  | nil => exact absurd hys.length_eq (by decide)
  | cons c cs =>
    have hc : '+' = c := (List.cons.inj heq).1
    have hdigit := hys.digits c (List.mem_cons_self ..)
    rw [← hc] at hdigit
    exact absurd hdigit (by decide)

end Timestamp

end ReleaseHistory.Time
