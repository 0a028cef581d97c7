import TaintFlow.Payload.Show
import TaintFlow.Mishap
import TaintFlow.Logging.Correlation
import TaintFlow.Json.Basic
import TaintFlow.Moment
import TaintFlow.Number.Binary64
import TaintFlow.Template.Percent

/-!
# Lines of a log

A record is written as one line of text or as one JSON object.  A line of text
shows the message as it is; in JSON nothing that a message holds can end the
line.
-/

namespace TaintFlow.Threshold

/-!
## Levels by name and by rank

A record is written if its level reaches the threshold.  A threshold is given by
a rank or by one of the names of levels, in capitals.
-/

/-- The names of levels that a threshold may be given by. -/
def names : List (String × Int) :=
  [("CRITICAL", 50), ("FATAL", 50), ("ERROR", 40), ("WARN", 30), ("WARNING", 30), ("INFO", 20),
   ("DEBUG", 10), ("NOTSET", 0)]

/-- The rank of a name. -/
def rank? (name : String) : Option Int := (names.find? (·.1 == name)).map Prod.snd

/-- The name of a rank. -/
def nameOf (rank : Int) : String :=
  if rank = 50 then "CRITICAL"
  else if rank = 40 then "ERROR"
  else if rank = 30 then "WARNING"
  else if rank = 20 then "INFO"
  else if rank = 10 then "DEBUG"
  else if rank = 0 then "NOTSET"
  else s!"Level {rank}"

/-- Read a threshold. -/
def read (given : Payload) : Except Mishap Int :=
  match given with
  | .int n => .ok n
  | .bool b => .ok (if b then 1 else 0)
  | .text name =>
    match rank? name with
    | some rank => .ok rank
    | none => .error (.badValue s!"Unknown level: {given.shown}")
  | _ => .error (.badType s!"Level not an integer or a valid string: {given.shown}")

end TaintFlow.Threshold

/-! ## Records -/

namespace TaintFlow

open Number

/-- A record of a log; `time` counts seconds from the start of 1970. -/
structure LogRecord where
  time : Binary64 := Binary64.zero false
  level : Int
  logger : String
  message : String
  exception : Option String := none
  correlation : Correlation := .none
  trace : Nat := 0

namespace LogRecord

/-- A number of seconds as whole seconds, toward zero, and the rest; `none` without end. -/
def splitTime (time : Binary64) : Option (Int × Binary64) :=
  match time with
  | .finite x =>
    let (num, den) := x.ratio
    let whole : Int := (num / den : Nat)
    some (if x.negative then -whole else whole, Binary64.ofQuotient x.negative (num % den) den)
  | _ => none

/-- The nearest whole number to so many times a double; a tie goes to the even one. -/
def timesNearest (x : Binary64) (k : Nat) : Int :=
  match x.mulNat k with
  | .finite y =>
    let (num, den) := y.ratio
    let magnitude : Int := roundQuotient num den
    if y.negative then -magnitude else magnitude
  | _ => 0

/-- So many times a double, the places dropped. -/
def timesWhole (x : Binary64) (k : Nat) : Int := ((splitTime (x.mulNat k)).map Prod.fst).getD 0

/-- The time to the nearest millionth of a second, if the calendar has it. -/
def moment? (r : LogRecord) : Option Moment := do
  let (whole, part) ← splitTime r.time
  Moment.ofMicros? (whole * 1000000 + timesNearest part 1000000) (some 0)

/-- The time in JSON, if the calendar has it. -/
def jsonTime? (r : LogRecord) : Option String :=
  r.moment?.map fun m => m.dateText ++ "T" ++ (m.clock.map fun c =>
    Moment.clockText c ++ (c.offset.map Moment.offsetText).getD "").getD ""

/-- The first and the last year of a time in a line of text. -/
def textYears : Int × Int := (-2147481748, 2147483647)

/-- The time in a line of text: the second, and the thousandths behind a comma.  Its year has no
more digits than it needs, and need not be one of the calendar. -/
def textTime? (r : LogRecord) : Option String := do
  let (whole, part) ← splitTime r.time
  let second := if part.isNegative && !part.same (Binary64.zero false) then whole - 1 else whole
  let (year, month, day) := Moment.dateOfDays (second.fdiv 86400)
  if year < textYears.1 ∨ textYears.2 < year then failure
  let clock := Moment.clockOf (second.fmod 86400).toNat 0 none
  let thousandths := timesWhole part 1000
  let sign := if thousandths < 0 then "-" else ""
  let width := if thousandths < 0 then 2 else 3
  return s!"{year}-" ++ Moment.padded 2 month ++ "-" ++ Moment.padded 2 day ++ " " ++
    Moment.clockText clock ++ "," ++ sign ++ Moment.padded width thousandths.natAbs

/-- The id of the trace: thirty-two hexadecimal digits, or nothing. -/
def traceText (r : LogRecord) : String :=
  if r.trace = 0 then "" else String.ofList (Text.hexPadded 32 r.trace)

/-- The record as a JSON object, given its time. -/
def toJson (r : LogRecord) (time : String) : Json :=
  .object <|
    [("timestamp", .text time), ("level", .text (Threshold.nameOf r.level)),
     ("logger", .text r.logger), ("message", .text r.message)] ++
    CorrelationField.all.map (fun field =>
      (field.text, ((r.correlation field).map CorrelationId.toJson).getD .null)) ++
    [("trace_id", .text r.traceText)] ++
    match r.exception with
    | some text => [("exception", .text text)]
    | none => []

/-- The record as one line of JSON, if its time and its ids can be written. -/
def jsonLine? (r : LogRecord) : Option (List Char) :=
  if r.correlation.isWritable then r.jsonTime?.map fun time => (r.toJson time).write else none

/-- The record as text, given its time. -/
def textLine (r : LogRecord) (time : String) : String :=
  let ids := CorrelationField.all.map fun field =>
    field.text ++ "=" ++ ((r.correlation field).map CorrelationId.plain).getD "None"
  let line := " ".intercalate
    ([time, Threshold.nameOf r.level, r.logger] ++ ids ++
      ["trace_id=" ++ r.traceText, r.message])
  match r.exception with
  | some text => line ++ (if line.endsWith "\n" then "" else "\n") ++ text
  | none => line

/-- The record as text, if its time and its ids can be written. -/
def textLine? (r : LogRecord) : Option String :=
  if r.correlation.isWritable then r.textTime?.map r.textLine else none

end LogRecord

/-- How a log is written: from which level on, and in which form. -/
structure LogSetup where
  threshold : Int := 20
  asJson : Bool := false

namespace LogSetup

/-- What is written for a record; nothing for one below the threshold, without a level of its
own, or with a time or an id that cannot be written. -/
def write (setup : LogSetup) (r : LogRecord) : String :=
  if r.level < setup.threshold ∨ r.level ≤ 0 then ""
  else
    let line := if setup.asJson then r.jsonLine?.map String.ofList else r.textLine?
    (line.map (· ++ "\n")).getD ""

end LogSetup

/-- The message of a record: its template filled with the arguments, if there are any.  A single
mapping is looked into by key. -/
def logMessage (template : String) (arguments : List Payload) : Except Mishap String :=
  match arguments with
  | [] => .ok template
  | [.map entries] =>
    if entries.isEmpty then Template.Percent.fill template (.row arguments)
    else Template.Percent.fill template (.keyed entries)
  | _ => Template.Percent.fill template (.row arguments)

/-- The text of an exception in a record: its full name, and its text if it has one. -/
def exceptionText (name text : String) : String := if text = "" then name else name ++ ": " ++ text

end TaintFlow
