import ReleaseHistory.Text.Digits
import ReleaseHistory.Time.Calendar

/-!
# Timestamps

A timestamp is an instant together with the offset of the clock that showed it. It is read from the
RFC 3339 form and written with whole seconds. In a leap second the fraction is a full second or
more, so that instants stay in order.
-/

namespace ReleaseHistory.Time

/-- An instant and the offset, in seconds east of Greenwich, in which it is shown. -/
structure Timestamp where
  /-- Whole seconds since 1970, without leap seconds. -/
  seconds : Int
  /-- Billionths of a second past them; a full second or more within a leap second. -/
  nanos : Nat
  offset : Int
  deriving DecidableEq, Repr

/-- Why a text is not a timestamp. -/
inductive Malformed
  | tooShort
  | invalid
  | outOfRange
  | trailing
  deriving DecidableEq, Repr

def Malformed.message : Malformed → String
  | .tooShort => "premature end of input"
  | .invalid => "input contains invalid characters"
  | .outOfRange => "input is out of range"
  | .trailing => "trailing input"

def byteLength (cs : List Char) : Nat := cs.foldl (fun n c => n + c.utf8Size) 0

def nanosPerSecond : Nat := 1000000000

/-! ### Reading -/

/-- Reads a number of exactly `width` digits. -/
def readNumber (width : Nat) (cs : List Char) : Except Malformed (Nat × List Char) :=
  -- bytes are counted before anything is looked at
  if byteLength cs < width then .error .tooShort
  else if (cs.take width).all Text.isDigit then .ok (Text.value (cs.take width), cs.drop width)
  else .error .invalid

def readOneOf (members : List Char) : List Char → Except Malformed (List Char)
  | [] => .error .tooShort
  | c :: cs => if members.contains c then .ok cs else .error .invalid

def plainLength : Nat := 19

def readDate (cs : List Char) : Except Malformed (Date × List Char) := do
  let (year, cs) ← readNumber 4 cs
  let cs ← readOneOf ['-'] cs
  let (month, cs) ← readNumber 2 cs
  let cs ← readOneOf ['-'] cs
  let (day, cs) ← readNumber 2 cs
  let date : Date := ⟨year, month, day⟩
  if date.isValid then return (date, cs) else throw .outOfRange

/-- Reads the fraction of a second. -/
def readFraction (cs : List Char) : Except Malformed (Nat × List Char) :=
  match cs with
  | [] => .error .tooShort
  | c :: _ =>
    if Text.isDigit c then
      -- digits beyond the ninth are dropped
      let digits := (cs.takeWhile Text.isDigit).take 9
      .ok (Text.value digits * Text.powerOfTen (9 - digits.length), cs.dropWhile Text.isDigit)
    else .error .invalid

def readOffsetMinutes (cs : List Char) : Except Malformed (Nat × List Char) :=
  if byteLength cs < 2 then .error .tooShort
  else
    match cs with
    | m :: n :: rest =>
      if Text.isDigit m && Text.isDigit n then
        -- the first digit alone decides whether they are in range
        if Text.digitValue m ≤ 5 then .ok (10 * Text.digitValue m + Text.digitValue n, rest)
        else .error .outOfRange
      else .error .invalid
    | _ => .error .invalid

/-- Reads an offset: `Z`, or a sign, hours and minutes. -/
def readOffset (cs : List Char) : Except Malformed (Int × List Char) := do
  match cs with
  | [] => throw .tooShort
  | c :: rest =>
    if c = 'Z' || c = 'z' then return (0, rest)
    if !(c = '+' || c = '-' || c = '\u2212') then throw .invalid
    let (hours, rest) ← readNumber 2 rest
    let rest ← readOneOf [':'] rest
    let (minutes, rest) ← readOffsetMinutes rest
    let seconds := 3600 * hours + 60 * minutes
    if seconds ≤ (23 * 60 + 59) * 60 then
      return (if c = '+' then Int.ofNat seconds else -Int.ofNat seconds, rest)
    else throw .outOfRange

namespace Timestamp

/-- The second of the day and the fraction of a time of day, if there is such a time. -/
def ofTime (hour minute second fraction : Nat) : Option (Nat × Nat) :=
  if hour ≤ 23 && minute ≤ 59 && second ≤ 60 then
    -- a leap second counts as a long last second of its minute
    if second = 60 then some (3600 * hour + 60 * minute + 59, nanosPerSecond + fraction)
    else some (3600 * hour + 60 * minute + second, fraction)
  else none

/-- Reads the RFC 3339 form. The date is checked when its day has been read, and the time of day
when its fraction has. -/
def ofChars (cs : List Char) : Except Malformed Timestamp := do
  if byteLength cs < plainLength then throw .tooShort
  let (date, cs) ← readDate cs
  let cs ← readOneOf ['T', 't', ' '] cs
  let (hour, cs) ← readNumber 2 cs
  let cs ← readOneOf [':'] cs
  let (minute, cs) ← readNumber 2 cs
  let cs ← readOneOf [':'] cs
  let (second, cs) ← readNumber 2 cs
  let (fraction, cs) ← match cs with
    | '.' :: cs => readFraction cs
    | cs => .ok (0, cs)
  match ofTime hour minute second fraction with
  | none => throw .outOfRange
  | some (daySecond, nanos) =>
    let (offset, cs) ← readOffset cs
    if !cs.isEmpty then throw .trailing
    return ⟨86400 * date.toDays + daySecond - offset, nanos, offset⟩

def parse (s : String) : Except Malformed Timestamp := ofChars s.toList

/-! ### Order, addition and writing -/

/-- The order of instants; offsets have no part in it. -/
def order (s t : Timestamp) : Ordering :=
  (compare s.seconds t.seconds).then (compare s.nanos t.nanos)

/-- The instant some seconds later. -/
def addSeconds (t : Timestamp) (k : Nat) : Timestamp :=
  if k = 0 then t
  else
    -- leaving a leap second, the fraction becomes a plain one
    let nanos := if t.nanos < nanosPerSecond then t.nanos else t.nanos - nanosPerSecond
    ⟨t.seconds + k, nanos, t.offset⟩

def localDate (t : Timestamp) : Date := Date.ofDays ((t.seconds + t.offset) / 86400)

def localSecond (t : Timestamp) : Nat := ((t.seconds + t.offset) % 86400).toNat

/-- A year has four digits at least, and a plus sign beyond that. -/
def yearText (year : Int) : String :=
  if year < 0 then "-" ++ Text.padded 4 year.natAbs
  else if year ≤ 9999 then Text.padded 4 year.toNat
  else "+" ++ Text.padded 5 year.toNat

/-- An offset as a sign, hours and minutes. -/
def offsetText (offset : Int) : String :=
  let minutes := offset.natAbs / 60
  (if offset < 0 then "-" else "+") ++ Text.padded 2 (minutes / 60) ++ ":" ++
    Text.padded 2 (minutes % 60)

/-- The RFC 3339 form with whole seconds; a leap second is the sixtieth of its minute. -/
def text (t : Timestamp) : String :=
  let date := t.localDate
  let second := t.localSecond
  let leap := if t.nanos < nanosPerSecond then 0 else 1
  s!"{yearText date.year}-{Text.padded 2 date.month}-{Text.padded 2 date.day}T" ++
    s!"{Text.padded 2 (second / 3600)}:{Text.padded 2 (second / 60 % 60)}:" ++
    s!"{Text.padded 2 (second % 60 + leap)}{offsetText t.offset}"

end Timestamp

end ReleaseHistory.Time
