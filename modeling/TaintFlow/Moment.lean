/-!
# Dates and times

A moment is a date of the calendar, with a time of day or without.  The harness
hands the moments of a document on, and it writes the time of a notice.
-/

namespace TaintFlow

/-- A time of day, with the offset of its zone in minutes if it has one. -/
structure Clock where
  hour : Nat
  minute : Nat
  second : Nat
  micro : Nat
  offset : Option Int
  deriving DecidableEq

/-- A date, with a time of day or without. -/
structure Moment where
  year : Nat
  month : Nat
  day : Nat
  clock : Option Clock
  deriving DecidableEq

namespace Moment

/-- The name of the kind of a moment. -/
def kind (m : Moment) : String := if m.clock.isSome then "datetime" else "date"

/-! ## The calendar -/

/-- The number of days in a month. -/
def daysIn (year month : Nat) : Nat :=
  if month == 2 then
    if year % 4 == 0 && (year % 100 != 0 || year % 400 == 0) then 29 else 28
  else if [4, 6, 9, 11].contains month then 30
  else 31

/-- The number of a day in its year, the first one being 1. -/
def dayOfYear (m : Moment) : Nat :=
  (List.range (m.month - 1)).foldl (fun days i => days + daysIn m.year (i + 1)) m.day

/-- The number of a day since the first of January of the year 1, which is day 1. -/
def dayNumber (m : Moment) : Nat :=
  let years := m.year - 1
  365 * years + years / 4 - years / 100 + years / 400 + m.dayOfYear

/-- The day of the week, Monday being 0. -/
def weekday (m : Moment) : Nat := (m.dayNumber + 6) % 7

/-- The millionths of a second since the calendar began, at the place of a clock. -/
def micros (m : Moment) (c : Clock) : Int :=
  let minutes : Int := ((m.dayNumber * 24 + c.hour) * 60 + c.minute : Nat)
  ((minutes - c.offset.getD 0) * 60 + c.second) * 1000000 + c.micro

/-- Are two moments the same?  Times with zones are the same if they are the same instant. -/
def same (m k : Moment) : Bool :=
  match m.clock, k.clock with
  | some c, some d =>
    if c.offset.isSome && d.offset.isSome then m.micros c == k.micros d else m == k
  | _, _ => m == k

/-! ## Validity -/

/-- The length of a day, in millionths of a second. -/
def dayLength : Int := 86400000000

/-- The text of a span of time inside a larger value: its days, and the seconds and millionths
of seconds after them. -/
def spanText (micros : Int) : String :=
  let part (name : String) (n : Int) : List String := if n = 0 then [] else [s!"{name}={n}"]
  let parts := part "days" (micros.fdiv dayLength) ++
    part "seconds" ((micros.fmod dayLength).fdiv 1000000) ++
    part "microseconds" (micros.fmod 1000000)
  "datetime.timedelta(" ++ (if parts.isEmpty then "0" else ", ".intercalate parts) ++ ")"

/-- The text of a span of minutes. -/
def minutesText (minutes : Int) : String := spanText (minutes * 60000000)

/-- The first part of a moment that is out of range, if one is. -/
def flaw? (m : Moment) : Option String :=
  let offset := (m.clock.bind (·.offset)).getD 0
  let clockFlaw (c : Clock) : Option String :=
    if 23 < c.hour then some "hour must be in 0..23"
    else if 59 < c.minute then some "minute must be in 0..59"
    else if 59 < c.second then some "second must be in 0..59"
    else none
  if 1440 ≤ offset.natAbs then
    some ("offset must be a timedelta strictly between -timedelta(hours=24) and " ++
      s!"timedelta(hours=24), not {minutesText offset}.")
  else if m.year = 0 then some s!"year {m.year} is out of range"
  else if m.month = 0 ∨ 12 < m.month then some "month must be in 1..12"
  else if m.day = 0 ∨ daysIn m.year m.month < m.day then some "day is out of range for month"
  else m.clock.bind clockFlaw

/-! ## Texts -/

/-- A number of at least so many digits. -/
def padded (width n : Nat) : String :=
  let row := toString n
  String.ofList (List.replicate (width - row.length) '0') ++ row

/-- The text of a span of time on its own. -/
def spanPlain (micros : Int) : String :=
  let days := micros.fdiv dayLength
  let second := ((micros.fmod dayLength).fdiv 1000000).toNat
  let rest := (micros.fmod 1000000).toNat
  let unit := if days.natAbs = 1 then "day" else "days"
  (if days = 0 then "" else s!"{days} {unit}, ") ++
    toString (second / 3600) ++ ":" ++ padded 2 (second / 60 % 60) ++ ":" ++
    padded 2 (second % 60) ++ (if rest = 0 then "" else "." ++ padded 6 rest)

/-- The offset of a zone as hours and minutes. -/
def offsetText (offset : Int) : String :=
  let minutes := offset.natAbs
  (if offset < 0 then "-" else "+") ++ padded 2 (minutes / 60) ++ ":" ++ padded 2 (minutes % 60)

/-- The year, the month and the day. -/
def dateText (m : Moment) : String :=
  padded 4 m.year ++ "-" ++ padded 2 m.month ++ "-" ++ padded 2 m.day

/-- The time of day without its zone. -/
def clockText (c : Clock) : String :=
  padded 2 c.hour ++ ":" ++ padded 2 c.minute ++ ":" ++ padded 2 c.second ++
    (if c.micro = 0 then "" else "." ++ padded 6 c.micro)

/-- The name of a zone. -/
def zoneName (offset : Int) : String := if offset = 0 then "UTC" else "UTC" ++ offsetText offset

/-- The text of a zone inside a larger value. -/
def zoneText (offset : Int) : String :=
  if offset = 0 then "datetime.timezone.utc" else "datetime.timezone(" ++ minutesText offset ++ ")"

/-- How a moment shows its zone. -/
def zoneShown (offset : Int) : String := "tzinfo=" ++ zoneText offset

/-- How a zone is written on a wire. -/
def zoneWire (offset : Int) : String := if offset = 0 then "Z" else offsetText offset

/-- The text of a moment inside a larger value. -/
def shown (m : Moment) : String :=
  let numbers := [m.year, m.month, m.day] ++ match m.clock with
    | none => []
    | some c =>
      [c.hour, c.minute] ++
        (if c.micro ≠ 0 then [c.second, c.micro] else if c.second ≠ 0 then [c.second] else [])
  let zone := ((m.clock.bind (·.offset)).map zoneShown).toList
  s!"datetime.{m.kind}(" ++ ", ".intercalate (numbers.map toString ++ zone) ++ ")"

/-- The text of a moment on its own. -/
def plain (m : Moment) : String :=
  match m.clock with
  | none => m.dateText
  | some c => m.dateText ++ " " ++ clockText c ++ (c.offset.map offsetText).getD ""

/-- The text of a moment on a wire. -/
def onWire (m : Moment) : String :=
  match m.clock with
  | none => m.dateText
  | some c => m.dateText ++ "T" ++ clockText c ++ (c.offset.map zoneWire).getD ""

/-! ## From a count of seconds -/

/-- The year, the month and the day that lie so many days after the first of March of a year
that four hundred divides; months are counted from March on, and February comes last. -/
def marchDate (days : Nat) : Nat × Nat × Nat :=
  let year := (days - days / 1460 + days / 36524 - days / 146096) / 365
  let day := days - (365 * year + year / 4 - year / 100)
  let month := (5 * day + 2) / 153
  (year, month, day - (153 * month + 2) / 5 + 1)

/-- The year, the month and the day that lie so many days after the first of January 1970; the
year before the year 1 is the year 0. -/
def dateOfDays (days : Int) : Int × Nat × Nat :=
  let shifted := days + 719468
  let era := shifted.fdiv 146097
  let (year, month, day) := marchDate (shifted.fmod 146097).toNat
  let (year, month) := if month < 10 then (year, month + 3) else (year + 1, month - 9)
  (year + era * 400, month, day)

/-- The time of day that lies so many seconds after midnight, with further millionths. -/
def clockOf (seconds micro : Nat) (offset : Option Int) : Clock :=
  ⟨seconds / 3600, seconds / 60 % 60, seconds % 60, micro, offset⟩

/-- The moment that lies so many millionths of a second after the start of 1970, if its year is
one of the calendar. -/
def ofMicros? (micros : Int) (offset : Option Int) : Option Moment :=
  let seconds := micros.fdiv 1000000
  let (year, month, day) := dateOfDays (seconds.fdiv 86400)
  if year < 1 ∨ 9999 < year then none
  else
    let clock := clockOf (seconds.fmod 86400).toNat (micros.fmod 1000000).toNat offset
    some ⟨year.toNat, month, day, some clock⟩

end Moment

end TaintFlow
