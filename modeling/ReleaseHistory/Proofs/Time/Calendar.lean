import Mathlib
import ReleaseHistory.Time.Calendar

/-!
# Days and dates correspond

A day belongs to the one year that begins on it or before it and whose successor begins after it, so
years never go back as days go on. Within a year the lengths of the months are used up one after the
other. Together this makes counting days and finding their date inverse to each other.
-/

namespace ReleaseHistory.Time

/-! ### Years -/

def yearLength (year : Int) : Nat := if isLeap year then 366 else 365

theorem isLeap_iff {year : Int} :
    isLeap year = true ↔ year % 4 = 0 ∧ (year % 100 ≠ 0 ∨ year % 400 = 0) := by
  simp [isLeap]

theorem daysBeforeYear_next (year : Int) :
    daysBeforeYear (year + 1) = 365 * year + year / 4 - year / 100 + year / 400 := by
  simp only [daysBeforeYear, Int.add_sub_cancel]

theorem daysBeforeYear_succ (year : Int) :
    daysBeforeYear (year + 1) = daysBeforeYear year + yearLength year := by
  rw [daysBeforeYear_next]
  simp only [daysBeforeYear, yearLength]
  by_cases h : isLeap year = true
  · rw [if_pos h]
    rw [isLeap_iff] at h
    omega
  · rw [if_neg h]
    rw [isLeap_iff] at h
    omega

theorem daysBeforeYear_add (year : Int) (k : Nat) :
    daysBeforeYear year ≤ daysBeforeYear (year + k) := by
  induction k with
  | zero => simp
  | succ k ih =>
    have hs := daysBeforeYear_succ (year + k)
    rw [show year + ((k + 1 : Nat) : Int) = year + k + 1 by omega]
    omega

theorem daysBeforeYear_mono {y z : Int} (h : y ≤ z) : daysBeforeYear y ≤ daysBeforeYear z := by
  have := daysBeforeYear_add y (z - y).toNat
  rwa [show y + ((z - y).toNat : Int) = z by omega] at this

theorem daysBeforeYear_parts {cycle century four year : Int} (hc : 0 ≤ century ∧ century ≤ 3)
    (hf : 0 ≤ four ∧ four ≤ 24) (hy : 0 ≤ year ∧ year ≤ 3) :
    daysBeforeYear (400 * cycle + 100 * century + 4 * four + year + 1) =
      146097 * cycle + 36524 * century + 1461 * four + 365 * year := by
  have h4 : (400 * cycle + 100 * century + 4 * four + year) / 4 =
      100 * cycle + 25 * century + four := by omega
  have h100 : (400 * cycle + 100 * century + 4 * four + year) / 100 = 4 * cycle + century := by
    omega
  have h400 : (400 * cycle + 100 * century + 4 * four + year) / 400 = cycle := by omega
  rw [daysBeforeYear_next, h4, h100, h400]
  omega

/-- The last year of four is a leap year, unless it ends a century that does not end a cycle. -/
theorem yearLength_parts {cycle century four year : Int} (hc : 0 ≤ century ∧ century ≤ 3)
    (hf : 0 ≤ four ∧ four ≤ 24) (hy : 0 ≤ year ∧ year ≤ 3) :
    yearLength (400 * cycle + 100 * century + 4 * four + year + 1) =
      if year = 3 ∧ (four < 24 ∨ century = 3) then 366 else 365 := by
  have h4 : (400 * cycle + 100 * century + 4 * four + year + 1) % 4 = 0 ↔ year = 3 := by omega
  have h100 : (400 * cycle + 100 * century + 4 * four + year + 1) % 100 = 0 ↔
      year = 3 ∧ four = 24 := by omega
  have h400 : (400 * cycle + 100 * century + 4 * four + year + 1) % 400 = 0 ↔
      year = 3 ∧ four = 24 ∧ century = 3 := by omega
  unfold yearLength
  refine if_congr ?_ rfl rfl
  rw [isLeap_iff, h4, ne_eq, h100, h400]
  omega

namespace Date

/-- The year of a day begins on that day or before it, and is not over before it. -/
theorem daysBeforeYear_yearOf (n : Int) :
    daysBeforeYear (yearOf n) ≤ n ∧ n < daysBeforeYear (yearOf n) + yearLength (yearOf n) := by
  unfold yearOf
  simp only
  obtain ⟨cycle, hcycle⟩ : ∃ cycle, cycle = n / 146097 := ⟨_, rfl⟩
  obtain ⟨day, hday⟩ : ∃ day, day = n % 146097 := ⟨_, rfl⟩
  have hn : n = 146097 * cycle + day := by omega
  rw [← hcycle, ← hday]
  have hbound : 0 ≤ day ∧ day < 146097 := by omega
  clear hcycle hday
  obtain ⟨century, hcentury⟩ : ∃ century, century = min (day / 36524) 3 := ⟨_, rfl⟩
  obtain ⟨four, hfour⟩ : ∃ four, four = (day - 36524 * century) / 1461 := ⟨_, rfl⟩
  obtain ⟨year, hyear⟩ :
      ∃ year, year = min ((day - 36524 * century) % 1461 / 365) 3 := ⟨_, rfl⟩
  rw [← hcentury, ← hfour, ← hyear]
  have hc : 0 ≤ century ∧ century ≤ 3 := by omega
  have hf : 0 ≤ four ∧ four ≤ 24 := by omega
  have hy : 0 ≤ year ∧ year ≤ 3 := by omega
  rw [daysBeforeYear_parts hc hf hy, yearLength_parts hc hf hy]
  refine ⟨by omega, ?_⟩
  split <;> omega

theorem yearOf_eq {n year : Int} (hle : daysBeforeYear year ≤ n)
    (hlt : n < daysBeforeYear year + yearLength year) : yearOf n = year := by
  obtain ⟨hle', hlt'⟩ := daysBeforeYear_yearOf n
  rw [← daysBeforeYear_succ] at hlt hlt'
  rcases Int.lt_trichotomy (yearOf n) year with h | h | h
  · have := daysBeforeYear_mono (show yearOf n + 1 ≤ year by omega)
    omega
  · exact h
  · have := daysBeforeYear_mono (show year + 1 ≤ yearOf n by omega)
    omega

theorem yearOf_mono {m n : Int} (h : m ≤ n) : yearOf m ≤ yearOf n := by
  obtain ⟨hm, -⟩ := daysBeforeYear_yearOf m
  obtain ⟨-, hn⟩ := daysBeforeYear_yearOf n
  rw [← daysBeforeYear_succ] at hn
  by_contra hlt
  have := daysBeforeYear_mono (show yearOf n + 1 ≤ yearOf m by omega)
  omega

/-! ### Months -/

theorem sum_monthLengths (year : Int) : (monthLengths year).sum = yearLength year := by
  unfold monthLengths yearLength
  split <;> rfl

theorem foldl_add_eq (lengths : List Nat) (n : Nat) :
    lengths.foldl (· + ·) n = lengths.sum + n := by
  induction lengths generalizing n with
  | nil => simp
  | cons length lengths ih =>
    rw [List.foldl_cons, ih, List.sum_cons]
    omega

theorem sum_take_add_le {lengths : List Nat} {i length : Nat} (h : lengths[i]? = some length) :
    (lengths.take i).sum + length ≤ lengths.sum := by
  induction lengths generalizing i with
  | nil => simp at h
  | cons first rest ih =>
    cases i with
    | zero =>
      obtain rfl : first = length := by simpa using h
      simp
    | succ i =>
      have := ih (by simpa using h)
      rw [List.take_succ_cons, List.sum_cons, List.sum_cons]
      omega

theorem monthDay_sum_take {lengths : List Nat} {i length n month : Nat}
    (h : lengths[i]? = some length) (hn : n < length) :
    monthDay lengths month ((lengths.take i).sum + n) = (month + i, n + 1) := by
  induction lengths generalizing i month with
  | nil => simp at h
  | cons first rest ih =>
    rw [monthDay]
    cases i with
    | zero =>
      obtain rfl : first = length := by simpa using h
      simp [hn]
    | succ i =>
      rw [List.take_succ_cons, List.sum_cons, if_neg (by omega),
        show first + (rest.take i).sum + n - first = (rest.take i).sum + n by omega,
        ih (by simpa using h)]
      simp only [Prod.mk.injEq, and_true]
      omega

theorem exists_sum_take {lengths : List Nat} {n : Nat} (h : n < lengths.sum) :
    ∃ i length k, lengths[i]? = some length ∧ k < length ∧ n = (lengths.take i).sum + k := by
  induction lengths generalizing n with
  | nil => simp at h
  | cons first rest ih =>
    rw [List.sum_cons] at h
    by_cases hn : n < first
    · exact ⟨0, first, n, rfl, hn, by simp⟩
    · obtain ⟨i, length, k, hi, hk, heq⟩ := ih (show n - first < rest.sum by omega)
      refine ⟨i + 1, length, k, hi, hk, ?_⟩
      rw [List.take_succ_cons, List.sum_cons]
      omega

/-! ### Dates -/

theorem isValid_iff {year : Int} {month day : Nat} :
    isValid ⟨year, month, day⟩ = true ↔ ∃ i length k, (monthLengths year)[i]? = some length ∧
      k < length ∧ month = i + 1 ∧ day = k + 1 := by
  unfold isValid
  simp only [Bool.and_eq_true, decide_eq_true_eq]
  constructor
  · rintro ⟨⟨hm, hd⟩, hlength⟩
    split at hlength
    · rename_i length hi
      exact ⟨month - 1, length, day - 1, hi, by simp at hlength; omega, by omega, by omega⟩
    · cases hlength
  · rintro ⟨i, length, k, hi, hk, rfl, rfl⟩
    refine ⟨⟨by omega, by omega⟩, ?_⟩
    rw [Nat.add_sub_cancel, hi]
    exact decide_eq_true hk

theorem toDays_of_month {year : Int} {i k : Nat} :
    toDays ⟨year, i + 1, k + 1⟩ + epochDays =
      daysBeforeYear year + (((monthLengths year).take i).sum + k : Nat) := by
  simp only [toDays, daysBefore, Nat.add_sub_cancel, foldl_add_eq]
  omega

theorem ofDays_of_month {days year : Int} {i length k : Nat}
    (hi : (monthLengths year)[i]? = some length) (hk : k < length)
    (hdays : days + epochDays =
      daysBeforeYear year + (((monthLengths year).take i).sum + k : Nat)) :
    ofDays days = ⟨year, i + 1, k + 1⟩ := by
  have hsum := sum_take_add_le hi
  rw [sum_monthLengths] at hsum
  have hyear : yearOf (days + epochDays) = year := yearOf_eq (by omega) (by omega)
  have hday : (days + epochDays - daysBeforeYear year).toNat =
      ((monthLengths year).take i).sum + k := by omega
  simp only [ofDays, hyear, hday, monthDay_sum_take hi hk, Nat.add_comm 1 i]

theorem ofDays_toDays {d : Date} (h : d.isValid = true) : ofDays d.toDays = d := by
  obtain ⟨year, month, day⟩ := d
  obtain ⟨i, length, k, hi, hk, rfl, rfl⟩ := isValid_iff.1 h
  exact ofDays_of_month hi hk toDays_of_month

theorem isValid_ofDays (days : Int) :
    (ofDays days).isValid = true ∧ (ofDays days).toDays = days := by
  obtain ⟨hle, hlt⟩ := daysBeforeYear_yearOf (days + epochDays)
  obtain ⟨n, hn⟩ := Int.eq_ofNat_of_zero_le (Int.sub_nonneg.2 hle)
  obtain ⟨i, length, k, hi, hk, rfl⟩ := exists_sum_take
    (show n < (monthLengths (yearOf (days + epochDays))).sum by rw [sum_monthLengths]; omega)
  rw [ofDays_of_month hi hk (by omega)]
  refine ⟨isValid_iff.2 ⟨i, length, k, hi, hk, rfl, rfl⟩, ?_⟩
  have htoDays := @toDays_of_month (yearOf (days + epochDays)) i k
  omega

theorem year_ofDays (days : Int) : (ofDays days).year = yearOf (days + epochDays) := rfl

theorem isValid_bounds {d : Date} (h : d.isValid = true) : d.month ≤ 12 ∧ d.day ≤ 31 := by
  obtain ⟨year, month, day⟩ := d
  obtain ⟨i, length, k, hi, hk, rfl, rfl⟩ := isValid_iff.1 h
  have hmonth := (List.getElem?_eq_some_iff.1 hi).1
  have hlength : ∀ l ∈ monthLengths year, l ≤ 31 := by
    unfold monthLengths
    split <;> decide
  have hmem := hlength length (List.mem_of_getElem? hi)
  simp only [monthLengths, List.length_cons, List.length_nil] at hmonth
  constructor <;> simp only <;> omega

end Date

end ReleaseHistory.Time
