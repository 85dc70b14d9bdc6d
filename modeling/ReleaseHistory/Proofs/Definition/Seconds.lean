import ReleaseHistory.Proofs.Definition.Progress
import ReleaseHistory.Proofs.WorkTree.Repository

/-!
# The seconds of a history

A definition is checked with instants, while a signature keeps the second of its time and drops what
lies within it. So the seconds of a history never go back, but they may repeat: two entries share a
second where the later time has a fraction, or is in a leap second, that the earlier one falls short
of. Among times of whole seconds none repeats. What is stored of a second are its last 32 bits, so
that two entries that are far enough apart can have the same time in the store.
-/

namespace ReleaseHistory

open Git Repository

namespace Time.Timestamp

variable {s t : Timestamp}

theorem Before.seconds_le (h : s.Before t) : s.seconds ≤ t.seconds := by
  unfold Before at h
  omega

theorem Before.nanos_lt (h : s.Before t) (hseconds : s.seconds = t.seconds) :
    s.nanos < t.nanos := by
  unfold Before at h
  omega

theorem Before.seconds_lt (h : s.Before t) (hwhole : t.nanos = 0) : s.seconds < t.seconds := by
  unfold Before at h
  omega

end Time.Timestamp

/-! ### Seconds in the store -/

namespace Git.Signature

/-- The seconds after which stored times begin again. -/
def era : Int := 0x100000000

theorem storedSeconds_eq_iff {a b : Signature} :
    a.storedSeconds = b.storedSeconds ↔ era ∣ b.seconds - a.seconds := by
  unfold storedSeconds era
  omega

/-- Signatures of one era, in the order of their times, are stored with different times. -/
theorem nodup_storedSeconds {signatures : List Signature}
    (hlt : (signatures.map (·.seconds)).Pairwise (· < ·))
    (hera : ∀ a ∈ signatures, ∀ b ∈ signatures, b.seconds < a.seconds + era) :
    (signatures.map (·.storedSeconds)).Nodup := by
  rw [List.pairwise_map] at hlt
  rw [List.Nodup, List.pairwise_map]
  refine hlt.imp_of_mem fun {a b} ha hb h hsame => ?_
  have hdvd := storedSeconds_eq_iff.1 hsame
  have hle := Int.le_of_dvd (by omega) hdvd
  have hnear := hera a ha b hb
  omega

end Git.Signature

/-! ### Signatures of times -/

theorem Repository.exists_signatureAt {i : Identity} {time : String} {t : Time.Timestamp}
    (hname : Signature.isUsable i.name = true) (hemail : Signature.isUsable i.email = true)
    (ht : Time.Timestamp.parse time = .ok t) :
    ∃ signature, signatureAt i time = .ok signature ∧ signature.seconds = t.seconds := by
  refine ⟨⟨Signature.trim i.name, Signature.trim i.email, t.seconds, t.offset / 60⟩, ?_, rfl⟩
  rw [signatureAt_of_parse ht, Signature.make, hname, hemail]
  rfl

namespace Definition

theorem exists_signatures {i : Identity} {times : List String} {stamps : List Time.Timestamp}
    (hname : Signature.isUsable i.name = true) (hemail : Signature.isUsable i.email = true)
    (hstamps : times.map Time.Timestamp.parse = stamps.map .ok) :
    ∃ signatures : List Signature, times.map (signatureAt i) = signatures.map .ok ∧
      signatures.map (·.seconds) = stamps.map (·.seconds) := by
  induction times generalizing stamps with
  | nil =>
    cases stamps with
    | nil => exact ⟨[], rfl, rfl⟩
    | cons t stamps => cases hstamps
  | cons time times ih =>
    cases stamps with
    | nil => cases hstamps
    | cons t stamps =>
      obtain ⟨htime, hrest⟩ := List.cons.inj hstamps
      obtain ⟨signature, hsignature, hsecond⟩ := exists_signatureAt hname hemail htime
      obtain ⟨signatures, hsignatures, hseconds⟩ := ih hrest
      refine ⟨signature :: signatures, ?_, ?_⟩
      · rw [List.map_cons, List.map_cons, hsignature, hsignatures]
      · rw [List.map_cons, List.map_cons, hsecond, hseconds]

/-- All entries of a definition that is accepted can be signed. In the order of the definition the
seconds of the signatures never go back. Two of them are equal only where the times differ within
the second, and so none are where all times are whole seconds. What is stored of two seconds is equal
exactly if they are some eras apart, so that whole seconds within one era are stored as different
ones. -/
theorem seconds_of_check [Pattern.Engine] {d : Definition} {i : Identity}
    (hname : Signature.isUsable i.name = true) (hemail : Signature.isUsable i.email = true)
    (hcheck : d.check = .ok ()) :
    ∃ (stamps : List Time.Timestamp) (signatures : List Signature),
      d.times.map Time.Timestamp.parse = stamps.map .ok ∧
      d.times.map (signatureAt i) = signatures.map .ok ∧
      signatures.map (·.seconds) = stamps.map (·.seconds) ∧
      (signatures.map (·.seconds)).Pairwise (· ≤ ·) ∧
      stamps.Pairwise (fun s t => s.seconds = t.seconds → s.nanos < t.nanos) ∧
      signatures.Pairwise (fun a b =>
        a.storedSeconds = b.storedSeconds ↔ Signature.era ∣ b.seconds - a.seconds) ∧
      ((∀ t ∈ stamps, t.nanos = 0) → (signatures.map (·.seconds)).Pairwise (· < ·) ∧
        ((∀ a ∈ signatures, ∀ b ∈ signatures, b.seconds < a.seconds + Signature.era) →
          (signatures.map (·.storedSeconds)).Nodup)) := by
  obtain ⟨p, hp⟩ := check_eq_ok.1 hcheck
  obtain ⟨stamps, hstamps, hbefore⟩ := (tracks_of_checkFrom hp).1.chronological
  obtain ⟨signatures, hsignatures, hseconds⟩ := exists_signatures hname hemail hstamps
  refine ⟨stamps, signatures, hstamps, hsignatures, hseconds, ?_, ?_, ?_, ?_⟩
  · rw [hseconds, List.pairwise_map]
    exact hbefore.imp Time.Timestamp.Before.seconds_le
  · exact hbefore.imp Time.Timestamp.Before.nanos_lt
  · exact List.pairwise_of_forall fun _ _ => Signature.storedSeconds_eq_iff
  · intro hwhole
    have hlt : (signatures.map (·.seconds)).Pairwise (· < ·) := by
      rw [hseconds, List.pairwise_map]
      exact hbefore.imp_of_mem fun _ ht h => h.seconds_lt (hwhole _ ht)
    exact ⟨hlt, Signature.nodup_storedSeconds hlt⟩

/-! ### Two entries in one second -/

attribute [local instance] Pattern.Engine.builtIn

/-- Three commits: half a second before midnight, in the leap second after it by a clock one hour
ahead, and at midnight. -/
def leaping : Definition :=
  [.commits [⟨"half", "2016-12-31T23:59:59.5+00:00", false⟩,
    ⟨"leap", "2017-01-01T00:59:60+01:00", false⟩, ⟨"midnight", "2017-01-01T00:00:00Z", false⟩]]

theorem check_leaping : leaping.check = .ok () := by decide +kernel

/-- Two commits that are one era apart. -/
def eraApart : Definition :=
  [.commits [⟨"first", "1970-01-01T00:00:00Z", false⟩, ⟨"last", "2106-02-07T06:28:16Z", false⟩]]

/-- The first definition is accepted, but its first two entries are signed with one second. Those of
the other one are signed with two, but what is stored of them is the same. -/
theorem seconds_repeated : (∃ signatures : List Signature, leaping.check = .ok () ∧
    leaping.times.map (signatureAt .default) = signatures.map .ok ∧
    signatures.map (·.seconds) = [1483228799, 1483228799, 1483228800] ∧
    ¬(signatures.map (·.seconds)).Pairwise (· < ·)) ∧
    ∃ signatures : List Signature, eraApart.check = .ok () ∧
      eraApart.times.map (signatureAt .default) = signatures.map .ok ∧
      signatures.map (·.storedSeconds) = [0, 0] := by
  have hleaping : leaping.times.map (signatureAt .default) =
      [(1483228799, 0), (1483228799, 60), (1483228800, 0)].map fun (seconds, offset) => .ok
        ⟨"semantic-release", "semantic-release@example.com", seconds, offset⟩ := by
    decide +kernel
  have happart : eraApart.times.map (signatureAt .default) =
      [0, 4294967296].map fun seconds => .ok
        ⟨"semantic-release", "semantic-release@example.com", seconds, 0⟩ := by
    decide +kernel
  exact ⟨⟨_, check_leaping, hleaping.trans List.map_map.symm, rfl, by decide⟩,
    _, by decide +kernel, happart.trans List.map_map.symm, by decide⟩

/-- The seconds of the three commits do not go back, and no two of them are some eras apart. -/
theorem seconds_of_check_leaping : Signature.isUsable Identity.default.name = true ∧
    Signature.isUsable Identity.default.email = true ∧ leaping.check = .ok () ∧
    ∃ (stamps : List Time.Timestamp) (signatures : List Signature),
      leaping.times.map Time.Timestamp.parse = stamps.map .ok ∧
      leaping.times.map (signatureAt .default) = signatures.map .ok ∧
      signatures.map (·.seconds) = stamps.map (·.seconds) ∧
      (signatures.map (·.seconds)).Pairwise (· ≤ ·) ∧
      stamps.Pairwise (fun s t => s.seconds = t.seconds → s.nanos < t.nanos) ∧
      signatures.Pairwise (fun a b =>
        a.storedSeconds = b.storedSeconds ↔ Signature.era ∣ b.seconds - a.seconds) := by
  have hname : Signature.isUsable Identity.default.name = true := by decide +kernel
  have hemail : Signature.isUsable Identity.default.email = true := by decide +kernel
  obtain ⟨stamps, signatures, hstamps, hsignatures, hseconds, hle, hlt, hstored, -⟩ :=
    seconds_of_check hname hemail check_leaping
  exact ⟨hname, hemail, check_leaping, stamps, signatures, hstamps, hsignatures, hseconds, hle, hlt,
    hstored⟩

end Definition

end ReleaseHistory
