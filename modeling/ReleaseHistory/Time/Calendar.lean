/-!
# The calendar

Dates of the Gregorian calendar, extended to all years, and their number of days since the first of
January 1970. Days are counted from the first of January of the year one, where cycles of 400 years
begin, so that the leap day of a cycle is its last.
-/

namespace ReleaseHistory.Time

def isLeap (year : Int) : Bool := year % 4 == 0 && (year % 100 != 0 || year % 400 == 0)

def monthLengths (year : Int) : List Nat :=
  [31, if isLeap year then 29 else 28, 31, 30, 31, 30, 31, 31, 30, 31, 30, 31]

/-- A day of the calendar. -/
structure Date where
  year : Int
  month : Nat
  day : Nat
  deriving DecidableEq, Repr

/-- Days from the first of January of the year one to that of another year. -/
def daysBeforeYear (year : Int) : Int :=
  let y := year - 1
  365 * y + y / 4 - y / 100 + y / 400

/-- Days from the first of January of the year one to that of 1970. -/
def epochDays : Int := 719162

namespace Date

def isValid (d : Date) : Bool :=
  1 ≤ d.month && 1 ≤ d.day &&
    match (monthLengths d.year)[d.month - 1]? with
    | some length => d.day ≤ length
    | none => false

def daysBefore (d : Date) : Nat :=
  ((monthLengths d.year).take (d.month - 1)).foldl (· + ·) (d.day - 1)

def toDays (d : Date) : Int := daysBeforeYear d.year + d.daysBefore - epochDays

/-- The month and the day, both from one, of a day of a year that is counted from zero. -/
def monthDay : List Nat → Nat → Nat → Nat × Nat
  | [], month, n => (month, n + 1)
  | length :: lengths, month, n =>
    if n < length then (month, n + 1) else monthDay lengths (month + 1) (n - length)

/-- The year that holds a day counted from the first of January of the year one. -/
def yearOf (n : Int) : Int :=
  let cycle := n / 146097
  let inCycle := n % 146097
  let century := min (inCycle / 36524) 3
  let inCentury := inCycle - 36524 * century
  let four := inCentury / 1461
  let inFour := inCentury % 1461
  let year := min (inFour / 365) 3
  400 * cycle + 100 * century + 4 * four + year + 1

def ofDays (days : Int) : Date :=
  let n := days + epochDays
  let year := yearOf n
  let (month, day) := monthDay (monthLengths year) 1 (n - daysBeforeYear year).toNat
  ⟨year, month, day⟩

end Date

end ReleaseHistory.Time
