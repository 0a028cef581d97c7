import TaintFlow.Moment
import TaintFlow.Number.Reading

/-!
# How dates and times are written

A date is written `2001-12-14`, and a time of day with an optional offset may
follow.
-/

namespace TaintFlow.Moment

open Number

/-- A reader of a moment; `none` if the text is not one. -/
abbrev Scan := StateT (List Char) Option

/-- Take the digits at the front, at least `least` and at most `most` of them. -/
def digits (least most : Nat) : Scan (List Char) := do
  let row := ((← get).take most).takeWhile isDigit
  if row.length < least then failure
  else
    modify (List.drop row.length)
    return row

/-- Take a number of so many digits. -/
def number (least most : Nat) : Scan Nat := return (ofDigits? 10 (← digits least most)).getD 0

/-- Take a character of a class. -/
def sign (p : Char → Bool) : Scan Char := do
  match ← get with
  | c :: rest =>
    if p c then
      set rest
      return c
    else failure
  | [] => failure

/-- Take one character. -/
def mark (c : Char) : Scan Unit := discard (sign (· == c))

/-- Take the blanks at the front. -/
def blanks : Scan Unit := modify (List.dropWhile fun c => c == ' ' || c == '\t')

/-- Take the millionths behind a point, if there is one; further digits are passed over. -/
def millionths : Scan Nat := do
  if (← get).head? == some '.' then
    mark '.'
    let row := (← get).takeWhile isDigit
    modify (List.drop row.length)
    return (ofDigits? 10 ((row ++ List.replicate 6 '0').take 6)).getD 0
  else return 0

/-- Take the offset of a zone in minutes. -/
def zone : Scan Int := do
  let c ← sign fun c => c == 'Z' || c == '+' || c == '-'
  if c == 'Z' then return 0
  else
    let hours ← number 1 2
    let minutes ← if (← get).head? == some ':' then
        mark ':'
        number 2 2
      else pure 0
    let total : Int := hours * 60 + minutes
    return if c == '-' then -total else total

/-- Take a time of day. -/
def timeOfDay : Scan Clock := do
  let start ← sign fun c => c == 'T' || c == 't' || c == ' ' || c == '\t'
  if start == ' ' || start == '\t' then blanks
  let hour ← number 1 2
  mark ':'
  let minute ← number 2 2
  mark ':'
  let second ← number 2 2
  let micro ← millionths
  if (← get).isEmpty then return ⟨hour, minute, second, micro, none⟩
  else
    blanks
    return ⟨hour, minute, second, micro, some (← zone)⟩

/-- Take a moment that is the whole text; the month and the day have at least `least` digits
if no time of day follows. -/
def scan (least : Nat) : Scan Moment := do
  let year ← number 4 4
  mark '-'
  let month ← digits 1 2
  mark '-'
  let day ← digits 1 2
  let clock ← if (← get).isEmpty then
      if month.length < least || day.length < least then failure else pure none
    else some <$> timeOfDay
  if (← get).isEmpty then
    return ⟨year, (ofDigits? 10 month).getD 0, (ofDigits? 10 day).getD 0, clock⟩
  else failure

/-- The moment that a text tells. -/
def ofText? (text : List Char) : Option Moment := ((scan 1).run text).map Prod.fst

/-- Is the text of a plain scalar a moment?  A date alone has all its digits. -/
def isMoment (text : List Char) : Bool := ((scan 2).run text).isSome

end TaintFlow.Moment
