import ReleaseHistory.Time.Timestamp

/-!
# Commit clocks

A clock hands out one timestamp a second from its start on, so that no two entries of a history
share one.
-/

namespace ReleaseHistory.Time

/-- A start and the number of timestamps handed out. -/
structure Clock where
  start : Timestamp
  ticks : Nat
  deriving DecidableEq, Repr

namespace Clock

/-- The start of a clock where none is configured. -/
def defaultStart : String := "2024-01-01T00:00:00+00:00"

def ofStart (start : Timestamp) : Clock := ⟨start, 0⟩

/-- A clock that has handed out nothing yet, from the text of its start. -/
def parse (start : String) : Except Malformed Clock := (Timestamp.parse start).map ofStart

/-- The timestamp that a clock hands out as number `k`, counted from zero. -/
def stamp (c : Clock) (k : Nat) : String := (c.start.addSeconds k).text

/-- The next timestamp, and the clock after it. -/
def next (c : Clock) : String × Clock := (c.stamp c.ticks, { c with ticks := c.ticks + 1 })

/-- A number of timestamps in a row, and the clock after them. -/
def nextMany : Nat → Clock → List String × Clock
  | 0, c => ([], c)
  | n + 1, c =>
    let (stamp, c) := c.next
    let (stamps, c) := nextMany n c
    (stamp :: stamps, c)

end Clock

end ReleaseHistory.Time
