import ReleaseHistory.Time.Clock
import ReleaseHistory.Proofs.Time.Timestamp

/-!
# What a clock hands out

A clock hands out the texts of consecutive seconds. They can be read as long as the year that is
shown has four digits, and years never go back, so of some texts in a row all can be read if the
last one can. What is read is later for every text, also on leaving a leap second.
-/

namespace ReleaseHistory.Time

namespace Timestamp

@[simp] theorem seconds_addSeconds (t : Timestamp) (k : Nat) :
    (t.addSeconds k).seconds = t.seconds + k := by
  unfold addSeconds
  split
  · rename_i h
    simp [h]
  · rfl

@[simp] theorem offset_addSeconds (t : Timestamp) (k : Nat) :
    (t.addSeconds k).offset = t.offset := by
  unfold addSeconds
  split <;> rfl

theorem year_addSeconds_mono (t : Timestamp) {j k : Nat} (h : j ≤ k) :
    (t.addSeconds j).localDate.year ≤ (t.addSeconds k).localDate.year := by
  simp only [localDate, Date.year_ofDays, seconds_addSeconds, offset_addSeconds]
  exact Date.yearOf_mono (by omega)

theorem before_addSeconds (t : Timestamp) {j k : Nat} (h : j < k) :
    (t.addSeconds j).whole.Before (t.addSeconds k).whole := by
  refine Or.inl ?_
  simp only [whole, seconds_addSeconds]
  omega

end Timestamp

namespace Clock

/-! ### Handing out -/

/-- What a clock hands out under a number does not depend on what it has handed out. -/
theorem stamp_ticks (c : Clock) (n k : Nat) : stamp { c with ticks := n } k = c.stamp k := rfl

theorem nextMany_eq (n : Nat) (c : Clock) :
    nextMany n c =
      ((List.range n).map fun k => c.stamp (c.ticks + k), { c with ticks := c.ticks + n }) := by
  induction n generalizing c with
  | zero => rfl
  | succ n ih =>
    rw [nextMany]
    simp only [next, ih, List.range_succ_eq_map, List.map_cons, List.map_map, Nat.add_zero,
      Prod.mk.injEq, List.cons.injEq, true_and]
    constructor
    · refine List.map_congr_left fun k _ => ?_
      simp only [Function.comp_apply, stamp]
      rw [show c.ticks + 1 + k = c.ticks + k.succ by omega]
    · rw [show c.ticks + 1 + n = c.ticks + (n + 1) by omega]

theorem length_nextMany (n : Nat) (c : Clock) : (nextMany n c).1.length = n := by
  rw [nextMany_eq, List.length_map, List.length_range]

theorem nextMany_add (m n : Nat) (c : Clock) :
    nextMany (m + n) c =
      ((nextMany m c).1 ++ (nextMany n (nextMany m c).2).1, (nextMany n (nextMany m c).2).2) := by
  induction m generalizing c with
  | zero => simp [nextMany]
  | succ m ih =>
    rw [Nat.add_right_comm]
    simp only [nextMany, ih, List.cons_append]

/-! ### Reading what was handed out -/

theorem parse_eq_ok {text : String} {c : Clock} :
    parse text = .ok c ↔ Timestamp.parse text = .ok c.start ∧ c.ticks = 0 := by
  obtain ⟨start, ticks⟩ := c
  unfold parse
  cases Timestamp.parse text with
  | error cause => simp [Except.map]
  | ok t => simp [Except.map, ofStart, eq_comm]

/-- A text that a clock hands out can be read exactly if its year is 9999 at most, and it is read
as its second. -/
theorem parse_stamp_iff {text : String} {c : Clock} (h : parse text = .ok c) (k : Nat)
    {u : Timestamp} :
    Timestamp.parse (c.stamp k) = .ok u ↔
      (c.start.addSeconds k).localDate.year ≤ 9999 ∧ u = (c.start.addSeconds k).whole := by
  obtain ⟨hregular, hpos, -⟩ := Timestamp.regular_of_ofChars (parse_eq_ok.1 h).1
  have hfirst := c.start.year_addSeconds_mono (Nat.zero_le k)
  rw [show c.start.addSeconds 0 = c.start from rfl] at hfirst
  unfold stamp
  by_cases hyear : (c.start.addSeconds k).localDate.year ≤ 9999
  · rw [Timestamp.parse_text (hregular.addSeconds k) (by omega) hyear]
    simp [hyear, eq_comm]
  · have hlate := @Timestamp.parse_text_of_late (c.start.addSeconds k) u (by omega)
    simp [hyear, hlate]

theorem nextMany_of_parse {text : String} {c : Clock} (h : parse text = .ok c) (n : Nat) :
    (nextMany n c).1 = (List.range n).map c.stamp := by
  rw [nextMany_eq, (parse_eq_ok.1 h).2]
  simp only [Nat.zero_add]

/-- What a clock hands out as number `k` can be read exactly if its year is 9999 at most. It is read
as the instant `k` seconds after the start, with the offset of the start, so what is handed out
later is read as a later instant. -/
theorem read_nextMany {text : String} {c : Clock} (h : parse text = .ok c) (n : Nat) :
    (∀ k < n, ∃ stamp, (nextMany n c).1[k]? = some stamp ∧
        ((∃ t, Timestamp.parse stamp = .ok t) ↔ (c.start.addSeconds k).localDate.year ≤ 9999) ∧
        ∀ t, Timestamp.parse stamp = .ok t →
          t.offset = c.start.offset ∧ t.seconds = c.start.seconds + k) ∧
      (nextMany n c).1.Pairwise fun earlier later => ∀ s t,
        Timestamp.parse earlier = .ok s → Timestamp.parse later = .ok t → t.order s = .gt := by
  rw [nextMany_of_parse h]
  constructor
  · intro k hk
    refine ⟨c.stamp k, by rw [List.getElem?_map, List.getElem?_range hk, Option.map_some], ?_, ?_⟩
    · simp only [parse_stamp_iff h, exists_and_left, exists_eq, and_true]
    · intro t ht
      obtain ⟨-, rfl⟩ := (parse_stamp_iff h k).1 ht
      exact ⟨Timestamp.offset_addSeconds .., Timestamp.seconds_addSeconds ..⟩
  · rw [List.pairwise_map]
    refine List.pairwise_lt_range.imp fun {j k} hjk s t hs ht => ?_
    obtain ⟨-, rfl⟩ := (parse_stamp_iff h j).1 hs
    obtain ⟨-, rfl⟩ := (parse_stamp_iff h k).1 ht
    exact Timestamp.order_eq_gt_iff.2 (c.start.before_addSeconds hjk)

/-- A leap second at the end of the year 9999 is the last that is handed out and can be read. -/
theorem read_nextMany_leap :
    ∃ c, parse "9999-12-31T23:59:60+01:00" = .ok c ∧
      (nextMany 2 c).1 = ["9999-12-31T23:59:60+01:00", "+10000-01-01T00:00:00+01:00"] ∧
      (∃ t, Timestamp.parse "9999-12-31T23:59:60+01:00" = .ok t) ∧
      ¬∃ t, Timestamp.parse "+10000-01-01T00:00:00+01:00" = .ok t := by
  have hparse : parse "9999-12-31T23:59:60+01:00" =
      .ok ⟨⟨253402297199, 1000000000, 3600⟩, 0⟩ :=
    Except.toOption_eq_some.1 (by decide +kernel)
  have hstamps : (nextMany 2 ⟨⟨253402297199, 1000000000, 3600⟩, 0⟩).1 =
      ["9999-12-31T23:59:60+01:00", "+10000-01-01T00:00:00+01:00"] := by
    decide +kernel
  obtain ⟨hread, -⟩ := read_nextMany hparse 2
  rw [hstamps] at hread
  obtain ⟨first, hfirst, hreadable, -⟩ := hread 0 (by decide)
  obtain ⟨second, hsecond, hunreadable, -⟩ := hread 1 (by decide)
  obtain rfl := Option.some.inj hfirst
  obtain rfl := Option.some.inj hsecond
  exact ⟨_, hparse, hstamps, hreadable.2 (by decide), hunreadable.not.2 (by decide)⟩

end Clock

end ReleaseHistory.Time
