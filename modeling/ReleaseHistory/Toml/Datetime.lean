import ReleaseHistory.Text.Digits

/-!
# Dates and times in configuration values

A value can be a date, a time of day, both, or both with an offset. A fraction of a second has nine
digits at most and is written without zeros at its end.
-/

namespace ReleaseHistory.Toml

/-- How many days a month has. -/
def daysIn (year month : Nat) : Nat :=
  if month = 2 then
    if year % 4 = 0 && (year % 100 ≠ 0 || year % 400 = 0) then 29 else 28
  else if [4, 6, 9, 11].contains month then 30
  else 31

/-- A day of the calendar in a year of four digits. -/
structure Day where
  year : Nat
  month : Nat
  day : Nat
  year_lt : year < 10000
  month_pos : 1 ≤ month
  month_le : month ≤ 12
  day_pos : 1 ≤ day
  day_le : day ≤ daysIn year month
  deriving DecidableEq, Repr

def Day.make? (year month day : Nat) : Option Day :=
  if h : year < 10000 ∧ 1 ≤ month ∧ month ≤ 12 ∧ 1 ≤ day ∧ day ≤ daysIn year month then
    some ⟨year, month, day, h.1, h.2.1, h.2.2.1, h.2.2.2.1, h.2.2.2.2⟩
  else none

/-- A time of day, which may be the hour 24 or a leap second. -/
structure TimeOfDay where
  hour : Nat
  minute : Nat
  second : Nat
  nanosecond : Nat
  hour_le : hour ≤ 24
  minute_le : minute ≤ 59
  second_le : second ≤ 60
  nanosecond_lt : nanosecond < 1000000000
  deriving DecidableEq, Repr

def TimeOfDay.make? (hour minute second nanosecond : Nat) : Option TimeOfDay :=
  if h : hour ≤ 24 ∧ minute ≤ 59 ∧ second ≤ 60 ∧ nanosecond < 1000000000 then
    some ⟨hour, minute, second, nanosecond, h.1, h.2.1, h.2.2.1, h.2.2.2⟩
  else none

/-- An offset of at most a day. -/
inductive Offset
  | utc
  | minutes (n : Int) (le : n.natAbs ≤ 24 * 60)
  deriving DecidableEq, Repr

def Offset.make? (n : Int) : Option Offset :=
  if h : n.natAbs ≤ 24 * 60 then some (.minutes n h) else none

/-- A date, a time of day, or both, with an offset in the last case. All parts are in the range of the
format, so that each can be written. -/
inductive Datetime
  | ofDay (day : Day)
  | ofTime (time : TimeOfDay)
  | ofBoth (day : Day) (time : TimeOfDay) (offset : Option Offset)
  deriving DecidableEq, Repr

namespace Datetime

def number (width : Nat) (cs : List Char) : Option (Nat × List Char) :=
  let digits := cs.take width
  if digits.length = width && digits.all Text.isDigit then
    some (Text.value digits, cs.drop width)
  else none

def char (c : Char) : List Char → Option (List Char)
  | [] => none
  | d :: cs => if c = d then some cs else none

def readDay (cs : List Char) : Option (Day × List Char) := do
  let (year, cs) ← number 4 cs
  let cs ← char '-' cs
  let (month, cs) ← number 2 cs
  let cs ← char '-' cs
  let (day, cs) ← number 2 cs
  (Day.make? year month day).map fun d => (d, cs)

def readTime (cs : List Char) : Option (TimeOfDay × List Char) := do
  let (hour, cs) ← number 2 cs
  let cs ← char ':' cs
  let (minute, cs) ← number 2 cs
  let cs ← char ':' cs
  let (second, cs) ← number 2 cs
  let (nanosecond, cs) ← match cs with
    | '.' :: cs =>
      let digits := cs.takeWhile Text.isDigit
      if digits.isEmpty then none
      else
        -- digits beyond the ninth are dropped
        let digits := digits.take 9
        some (Text.value digits * Text.powerOfTen (9 - digits.length), cs.dropWhile Text.isDigit)
    | cs => some (0, cs)
  (TimeOfDay.make? hour minute second nanosecond).map fun t => (t, cs)

/-- Reads an offset, if there is one. -/
def readOffset (cs : List Char) : Option (Option Offset × List Char) := do
  match cs with
  | [] => return (none, [])
  | c :: cs =>
    if c = 'Z' || c = 'z' then return (some .utc, cs)
    if !(c = '+' || c = '-') then none
    let (hours, cs) ← number 2 cs
    let cs ← char ':' cs
    let (minutes, cs) ← number 2 cs
    let total : Int := 60 * hours + minutes
    (Offset.make? (if c = '+' then total else -total)).map fun o => (some o, cs)

def ofChars (cs : List Char) : Option Datetime := do
  if cs[2]? = some ':' then
    let (time, rest) ← readTime cs
    if rest.isEmpty then return .ofTime time else none
  let (day, cs) ← readDay cs
  match cs with
  | [] => return .ofDay day
  | c :: cs =>
    if !(c = 'T' || c = 't' || c = ' ') then none
    let (time, cs) ← readTime cs
    let (offset, rest) ← readOffset cs
    if rest.isEmpty then return .ofBoth day time offset else none

def parse? (s : String) : Option Datetime := ofChars s.toList

def dayText (d : Day) : String :=
  s!"{Text.padded 4 d.year}-{Text.padded 2 d.month}-{Text.padded 2 d.day}"

def timeText (t : TimeOfDay) : String :=
  let fraction := ((Text.padded 9 t.nanosecond).toList.reverse.dropWhile (· = '0')).reverse
  s!"{Text.padded 2 t.hour}:{Text.padded 2 t.minute}:{Text.padded 2 t.second}" ++
    (if t.nanosecond = 0 then "" else "." ++ String.ofList fraction)

def offsetText : Offset → String
  | .utc => "Z"
  | .minutes n _ =>
    (if n < 0 then "-" else "+") ++ Text.padded 2 (n.natAbs / 60) ++ ":" ++
      Text.padded 2 (n.natAbs % 60)

def text : Datetime → String
  | ofDay day => dayText day
  | ofTime time => timeText time
  | ofBoth day time offset => dayText day ++ "T" ++ timeText time ++ (offset.map offsetText).getD ""

end Datetime

end ReleaseHistory.Toml
