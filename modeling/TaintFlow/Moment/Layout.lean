import TaintFlow.Moment
import TaintFlow.Text.Case

/-!
# Layouts of moments

A layout is a text with directives: a percent sign and a letter stand for one
part of a moment.  Between the two a directive may say how its part is written:
what fills it up, to how many characters, and in which case.  What is no
directive stands for itself, as wide as it asks to be.  A date without a time of
day is laid out as its midnight.
-/

namespace TaintFlow.Moment

/-- The names of the days, Monday first. -/
def dayNames : List String :=
  ["Monday", "Tuesday", "Wednesday", "Thursday", "Friday", "Saturday", "Sunday"]

/-- The names of the months. -/
def monthNames : List String :=
  ["January", "February", "March", "April", "May", "June", "July", "August", "September",
   "October", "November", "December"]

/-- The first three letters of a name. -/
def shortName (name : String) : String := String.ofList (name.toList.take 3)

/-- A number of at least so many characters, filled up in front. -/
def filled (width : Nat) (fill : Char) (n : Nat) : String :=
  let row := toString n
  String.ofList (List.replicate (width - row.length) fill) ++ row

/-- The name of the day of a moment. -/
def dayName (m : Moment) : String := dayNames.getD m.weekday ""

/-- The name of the month of a moment. -/
def monthName (m : Moment) : String := monthNames.getD (m.month - 1) ""

/-- The number of the week of a day in its year, weeks beginning with a day of the week; the
days before the first such day are in week 0. -/
def weekFrom (m : Moment) (first : Nat) : Nat :=
  (m.dayOfYear - 1 + 7 - (m.weekday + 7 - first) % 7) / 7

/-- The number of days in a year. -/
def daysInYear (year : Nat) : Nat := 337 + daysIn year 2

/-- The year and the week of a day where weeks begin on Monday and belong to the year of
their Thursday. -/
def calendarWeek (m : Moment) : Nat × Nat :=
  let thursday : Int := m.dayOfYear + 3 - m.weekday
  let lastYear : Int := daysInYear (m.year - 1)
  let thisYear : Int := daysInYear m.year
  let (year, day) :=
    if thursday < 1 then (m.year - 1, thursday + lastYear)
    else if thisYear < thursday then (m.year + 1, thursday - thisYear)
    else (m.year, thursday)
  (year, (day.toNat + 6) / 7)

/-- The hour on the face of a clock. -/
def faceHour (c : Clock) : Nat := if c.hour % 12 = 0 then 12 else c.hour % 12

/-- The half of the day. -/
def halfOfDay (c : Clock) : String := if c.hour < 12 then "AM" else "PM"

/-- The seconds since 1970 began, at the place of a clock. -/
def sinceEpoch (m : Moment) (c : Clock) : Int :=
  ((m.dayNumber : Int) - 719163) * 86400 + ((c.hour * 60 + c.minute) * 60 + c.second : Nat)

/-- The offset of a zone without a colon. -/
def bareOffset (offset : Int) : String :=
  String.ofList ((offsetText offset).toList.filter (· ≠ ':'))

/-! ## The parts of a moment -/

/-- A number among the parts of a moment: its least width and whether blanks fill it up. -/
structure NumberPart where
  width : Nat
  blank : Bool
  value : Nat

/-- The parts of a moment that are numbers. -/
def numberPart? (m : Moment) (c : Clock) : Char → Option NumberPart
  | 'C' => some ⟨1, false, m.year / 100⟩
  | 'd' => some ⟨2, false, m.day⟩
  | 'e' => some ⟨2, true, m.day⟩
  | 'g' => some ⟨2, false, m.calendarWeek.1 % 100⟩
  | 'G' => some ⟨1, false, m.calendarWeek.1⟩
  | 'H' => some ⟨2, false, c.hour⟩
  | 'I' => some ⟨2, false, faceHour c⟩
  | 'j' => some ⟨3, false, m.dayOfYear⟩
  | 'k' => some ⟨2, true, c.hour⟩
  | 'l' => some ⟨2, true, faceHour c⟩
  | 'm' => some ⟨2, false, m.month⟩
  | 'M' => some ⟨2, false, c.minute⟩
  | 'S' => some ⟨2, false, c.second⟩
  | 'u' => some ⟨1, false, m.weekday + 1⟩
  | 'U' => some ⟨2, false, m.weekFrom 6⟩
  | 'V' => some ⟨2, false, m.calendarWeek.2⟩
  | 'w' => some ⟨1, false, (m.weekday + 1) % 7⟩
  | 'W' => some ⟨2, false, m.weekFrom 0⟩
  | 'y' => some ⟨2, false, m.year % 100⟩
  | 'Y' => some ⟨1, false, m.year⟩
  | _ => none

/-- A part that is a number, in its usual form. -/
def numberText (m : Moment) (c : Clock) (letter : Char) : String :=
  match m.numberPart? c letter with
  | some part => filled part.width (if part.blank then ' ' else '0') part.value
  | none => ""

/-- Several numbers with a separator between them. -/
def joined (m : Moment) (c : Clock) (separator : String) (letters : String) : String :=
  separator.intercalate (letters.toList.map (m.numberText c))

/-- The parts of a moment that are words. -/
def wordPart? (m : Moment) (c : Clock) : Char → Option String
  | '%' => some "%"
  | 'a' => some (shortName m.dayName)
  | 'A' => some m.dayName
  | 'b' | 'h' => some (shortName m.monthName)
  | 'B' => some m.monthName
  | 'c' =>
    some (" ".intercalate [shortName m.dayName, shortName m.monthName, m.numberText c 'e',
      m.joined c ":" "HMS", m.numberText c 'Y'])
  | 'D' | 'x' => some (m.joined c "/" "mdy")
  | 'F' => some (m.joined c "-" "Ymd")
  | 'n' => some "\n"
  | 'p' | 'P' => some (halfOfDay c)
  | 'r' => some (m.joined c ":" "IMS" ++ " " ++ halfOfDay c)
  | 'R' => some (m.joined c ":" "HM")
  | 's' => some (toString (m.sinceEpoch c))
  | 't' => some "\t"
  | 'T' | 'X' => some (m.joined c ":" "HMS")
  | 'Z' => some ""
  | _ => none

/-! ## Directives -/

/-- What fills a part up. -/
inductive Filling where
  | usual
  | nothing
  | blanks
  | zeros
  deriving DecidableEq

/-- Another way of naming the same part: by the era, or by other digits. -/
inductive Variant where
  | era
  | digits
  deriving DecidableEq

/-- A directive as far as it is read: what stood since its percent sign, how its part is to
be written, and whether the width has begun. -/
structure Directive where
  seen : List Char
  filling : Filling
  upper : Bool
  swapped : Bool
  width : Option Nat
  variant : Option Variant

/-- A directive of which only the percent sign is read. -/
def Directive.opened : Directive := ⟨['%'], .usual, false, false, none, none⟩

/-- The directive after one more character, if the character is no letter of a part. -/
def Directive.read? (d : Directive) (c : Char) : Option Directive :=
  let next := { d with seen := d.seen ++ [c] }
  if d.variant.isSome then none
  else if c = 'E' then some { next with variant := some .era }
  else if c = 'O' then some { next with variant := some .digits }
  else match d.width with
    | some width =>
      if c.isDigit then some { next with width := some (width * 10 + (c.toNat - 48)) } else none
    | none =>
      if c = '_' then some { next with filling := .blanks }
      else if c = '-' then some { next with filling := .nothing }
      else if c = '0' then some { next with filling := .zeros }
      else if c = '^' then some { next with upper := true }
      else if c = '#' then some { next with swapped := true }
      else if c.isDigit then some { next with width := some (c.toNat - 48) }
      else none

/-- Parts that have no form of a variant. -/
def lacksVariant : Variant → Char → Bool
  | .era, letter => "aAbhBDFdeHIkljmMSUVgGWw%".toList.contains letter
  | .digits, letter => "aADFcCxXY%".toList.contains letter

/-- A character in capitals, if one character is enough for it. -/
def capital (c : Char) : Char :=
  match (Text.upper (String.singleton c)).toList with
  | [u] => u
  | _ => c

/-- A word filled up to a width. -/
def Directive.wide (d : Directive) (limit : Nat) (word : List Char) : List Char :=
  let missing := min limit (d.width.getD 0) - word.length
  List.replicate missing (if d.filling = .zeros then '0' else ' ') ++ word

/-- A word in the case that a directive asks for at a letter. -/
def Directive.cased (d : Directive) (letter : Char) (word : List Char) : List Char :=
  if letter = 'P' ∨ (d.swapped ∧ letter = 'p') then word.map Char.toLower
  else if d.upper ∨ (d.swapped ∧ "aAbhB".toList.contains letter) then word.map capital
  else word

/-- A number as a directive writes it. -/
def Directive.number (d : Directive) (limit : Nat) (part : NumberPart) : List Char :=
  let row := (toString part.value).toList
  let missing := max part.width (min limit (d.width.getD 0)) - row.length
  match d.filling with
  | .nothing => d.wide limit row
  | .blanks => List.replicate missing ' ' ++ row
  | .zeros => List.replicate missing '0' ++ row
  | .usual => List.replicate missing (if part.blank then ' ' else '0') ++ row

/-- What stands for a directive that names no part: its own text from the last percent sign
on. -/
def Directive.unread (d : Directive) (limit : Nat) (letter : Char) : List Char :=
  let text := if letter = '%' then ['%'] else d.seen ++ [letter]
  d.wide limit
    (if d.upper ∨ (d.swapped ∧ "bh".toList.contains letter) then text.map capital else text)

/-- What a directive writes when it ends with a letter. -/
def Directive.write (d : Directive) (limit : Nat) (m : Moment) (c : Clock) (letter : Char) :
    List Char :=
  if d.variant.any (lacksVariant · letter) then d.unread limit letter
  else match m.numberPart? c letter, m.wordPart? c letter with
    | some part, _ => d.number limit part
    | none, some word => d.wide limit (d.cased letter word.toList)
    | none, none => if letter = 'z' then [] else d.unread limit letter

/-- Lay a moment out, character by character; a directive may be open. -/
def layOutFrom (limit : Nat) (m : Moment) (c : Clock) : Option Directive → List Char → List Char
  | none, [] => []
  | some d, [] => d.wide limit (if d.upper then d.seen.map capital else d.seen)
  | none, letter :: rest =>
    if letter = '%' then layOutFrom limit m c (some .opened) rest
    else letter :: layOutFrom limit m c none rest
  | some d, letter :: rest =>
    match d.read? letter with
    | some next => layOutFrom limit m c (some next) rest
    | none => d.write limit m c letter ++ layOutFrom limit m c none rest

/-! ## Layouts -/

/-- A layout in which the parts that only a moment itself knows are written out: the
millionths, the offset and the name of the zone.  It ends where a character NUL stands. -/
def prepared (c : Clock) : List Char → List Char
  | [] => []
  | '%' :: letter :: rest =>
    if letter = '\x00' then ['%']
    else if letter = 'f' then (padded 6 c.micro).toList ++ prepared c rest
    else if letter = 'z' then ((c.offset.map bareOffset).getD "").toList ++ prepared c rest
    else if letter = 'Z' then ((c.offset.map zoneName).getD "").toList ++ prepared c rest
    else '%' :: letter :: prepared c rest
  | letter :: rest => if letter = '\x00' then [] else letter :: prepared c rest

/-- The room for a layout of so many characters: it is doubled until it is 256 times as
large. -/
def roomFor (length : Nat) : Nat :=
  (List.range length).foldl (fun room _ => if room < 256 * length then 2 * room else room) 1024

/-- Lay a moment out.  What does not fit into the room for its layout is not laid out at all. -/
def laidOut (m : Moment) (layout : List Char) : List Char :=
  let c := m.clock.getD ⟨0, 0, 0, 0, none⟩
  let prepared := prepared c layout
  let room := roomFor prepared.length
  let text := layOutFrom room m c none prepared
  if text.length < room then text else []

end TaintFlow.Moment
