import TaintFlow.Yaml.Node
import TaintFlow.Payload.Basic
import TaintFlow.Number.Binary64
import TaintFlow.Number.Reading
import TaintFlow.Text.Base64
import TaintFlow.Text.Blank
import TaintFlow.Text.Case
import TaintFlow.Text.Quoted

/-!
# The values of scalars

The text of a scalar as a value of its type.  A scalar may bear a tag that its
text does not fit; such a misfit is a mishap of the conversion, not of the form
of the document.
-/

namespace TaintFlow.Yaml.Conversion

open Number

/-- The most characters of a quoted text in the mishap of a whole number. -/
def shownLength : Nat := 200

/-- A quoted text that is no whole number in a base. -/
def notWhole (base : Nat) (quoted : List Char) : Mishap :=
  let shown := String.ofList (quoted.take shownLength)
  .badValue s!"invalid literal for int() with base {base}: {shown}"

/-- A text without the character that tells its form. -/
def tooShort : Mishap := .noIndex "string index out of range"

/-- Drop the letter that announces a base. -/
def dropBaseMark (base : Nat) : List Char → List Char
  | '0' :: c :: rest =>
    let mark := if base = 16 then 'x' else if base = 8 then 'o' else if base = 2 then 'b' else '0'
    if c.toLower = mark ∧ base ≠ 10 then rest else '0' :: c :: rest
  | row => row

/-- The whole number of a text in a base, with an optional sign and blanks around it. -/
def wholeIn (base : Nat) (text : List Char) : Except Mishap Int :=
  let (negative, row) := splitSign ((Text.strip text).map Text.plainDigit)
  let digits := (row.takeWhile isDigit).length
  if base = 10 ∧ maxDigits < digits then .error (unreadable digits)
  else match ofDigitRow? base (dropBaseMark base row) with
  | some n => .ok (if negative then -(n : Int) else n)
  | none => .error (notWhole base (Text.quote text))

/-- The sign of a number and the text behind it. -/
def signed (text : List Char) : Except Mishap (Bool × List Char) :=
  if text.isEmpty then .error tooShort else .ok (splitSign text)

/-- Counts of sixtieths as one number, the last count first. -/
def sixtieths : List Int → Int
  | [] => 0
  | n :: rest => n + 60 * sixtieths rest

/-- The whole number of a scalar. -/
def whole (text : List Char) : Except Mishap Int := do
  let (negative, row) ← signed (text.filter (· ≠ '_'))
  let magnitude ← match row with
    | ['0'] => pure 0
    | '0' :: 'b' :: rest => wholeIn 2 rest
    | '0' :: 'x' :: rest => wholeIn 16 rest
    | '0' :: _ => wholeIn 8 row
    | [] => .error tooShort
    | _ =>
      if row.contains ':' then
        return (if negative then -1 else 1) *
          sixtieths (← (row.splitOn ':').mapM (wholeIn 10)).reverse
      else wholeIn 10 row
  return if negative then -magnitude else magnitude

/-- The double of a text, with blanks around it. -/
def double (text : List Char) : Except Mishap Binary64 :=
  match readDouble? ((Text.strip text).map Text.plainDigit) with
  | some x => .ok x
  | none =>
    .error (.badValue s!"could not convert string to float: {Text.quoted (String.ofList text)}")

/-- Counts of sixtieths as one double, summed from the last count on. -/
def sixtiethsDouble (parts : List Binary64) : Except Mishap Binary64 :=
  parts.reverse.zipIdx.foldlM (fun sum (x, i) =>
    match Binary64.ofInt? (Nat.pow 60 i : Nat) with
    | some scale => .ok (sum.add (x.mul scale))
    | none => .error (.tooLarge "int too large to convert to float")) (Binary64.zero false)

/-- The mark of the value that is not a number and that a document has a word of its own for:
all places that have the word have the one value. -/
def wordMark : Nat := 0

/-- The mark of a value that is not a number and that the scalar of a number in its document
stands for. -/
def ownMark (serial : Nat) : Nat := 2 * serial + 1

/-- The double of a scalar. -/
def decimal (text : List Char) (serial : Nat) : Except Mishap Binary64 := do
  let lowered := (Text.lower (String.ofList (text.filter (· ≠ '_')))).toList
  let (negative, row) ← signed lowered
  let magnitude ←
    if row = ".inf".toList then pure (.infinite false)
    else if row = ".nan".toList then return .nan wordMark
    else if row.contains ':' then
      sixtiethsDouble (← (row.splitOn ':').mapM double)
    else double row
  return match magnitude with
    | .nan _ => .nan (ownMark serial)
    | x => if negative then x.neg else x

/-- The truth value of a scalar. -/
def truth (text : String) : Except Mishap Bool :=
  let word := Text.lower text
  match Tag.truthWords.find? (·.1 == word) with
  | some (_, b) => .ok b
  | none => .error (.noKey (Text.quoted word))

/-- A collection in the place of the text of a moment. -/
def noMomentText : Mishap := .badType "expected string or bytes-like object, got 'list'"

/-- A text that is no moment. -/
def noMoment : Mishap := .noAttribute "'NoneType' object has no attribute 'groupdict'"

/-- The moment of a scalar. -/
def moment (text : List Char) : Except Mishap Payload :=
  let row := if text.getLast? == some '\n' then text.dropLast else text
  match Moment.ofText? row with
  | some m =>
    match m.flaw? with
    | some text => .error (.badValue text)
    | none => .ok (.moment m)
  | none => .error noMoment

/-- The characters of a Base64 text that count: those of the alphabet, up to the signs that
fill a group; `none` if the last group is not filled. -/
def bytesFrom (group : List Nat) (filled : Nat) : List Char → Option (List UInt8)
  | [] => if group.isEmpty then some [] else none
  | '=' :: rest =>
    if 2 ≤ group.length then
      if 4 ≤ group.length + filled + 1 then some [] else bytesFrom group (filled + 1) rest
    else bytesFrom group filled rest
  | c :: rest =>
    match Text.Base64.bits? c with
    | none => bytesFrom group filled rest
    | some n =>
      match group with
      | [] => bytesFrom [n] 0 rest
      | [a] => (bytesFrom [a, n] 0 rest).map (UInt8.ofNat (a * 4 + n / 16) :: ·)
      | [a, b] => (bytesFrom [a, b, n] 0 rest).map (UInt8.ofNat (b % 16 * 16 + n / 4) :: ·)
      | _ :: _ :: c :: _ => (bytesFrom [] 0 rest).map (UInt8.ofNat (c % 4 * 64 + n) :: ·)

/-- The bytes that a scalar spells; `none` if it spells none. -/
def bytes? (text : List Char) : Option (List UInt8) :=
  if text.all (·.toNat < 128) then bytesFrom [] 0 text else none

/-- The value of a scalar of a type, given its number in the document. -/
def scalar (tag : Tag) (text : String) (serial : Nat) : Except Refusal Payload :=
  let converted {α : Type} (a : Except Mishap α) (f : α → Payload) : Except Refusal Payload :=
    match a with
    | .ok a => .ok (f a)
    | .error m => .error (.mishap m)
  match tag with
  | .text => .ok (.text text)
  | .whole => converted (whole text.toList) .int
  | .decimal => converted (decimal text.toList serial) .float
  | .truth => converted (truth text) .bool
  | .null => .ok .null
  | .moment => converted (moment text.toList) id
  | .binary =>
    match bytes? text.toList with
    | some b => .ok (.bytes b)
    | none => .error .malformed
  | _ => .error .malformed

end TaintFlow.Yaml.Conversion
