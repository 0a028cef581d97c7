import TaintFlow.Mishap
import TaintFlow.Number.Binary64
import TaintFlow.Text.Blank

/-!
# Reading numbers

Texts of whole numbers and doubles.  A reader takes a whole text: `none` means
that the text has no number in it, or something beside one.
-/

namespace TaintFlow.Number

/-!
## The longest numbers in base ten

A whole number is read from decimal digits, and written in them, only up to a
number of digits.  Other bases know no such limit.
-/

/-- The most decimal digits of a whole number that is read or written. -/
def maxDigits : Nat := 4300

/-- What both mishaps of the limit begin with. -/
def limitText : String := s!"Exceeds the limit ({maxDigits} digits) for integer string conversion"

/-- What both mishaps of the limit end with. -/
def limitAdvice : String := "; use sys.set_int_max_str_digits() to increase the limit"

/-- The mishap of reading so many digits. -/
def unreadable (count : Nat) : Mishap :=
  .badValue (s!"{limitText}: value has {count} digits" ++ limitAdvice)

/-- The mishap of writing a number that has too many digits. -/
def unwritable : Mishap := .badValue (limitText ++ limitAdvice)

/-- Has a number few enough digits to be written? -/
def isWritable (n : Int) : Bool := n.natAbs < Nat.pow 10 maxDigits

/-! ## Texts of numbers -/

/-- The value of a decimal digit. -/
def digitValue? (c : Char) : Option Nat :=
  if '0' ≤ c ∧ c ≤ '9' then some (c.toNat - '0'.toNat) else none

/-- The value of a digit in a base up to thirty-six. -/
def digitIn? (base : Nat) (c : Char) : Option Nat :=
  let value? : Option Nat :=
    if '0' ≤ c ∧ c ≤ '9' then some (c.toNat - '0'.toNat)
    else if 'a' ≤ c ∧ c ≤ 'z' then some (c.toNat - 'a'.toNat + 10)
    else if 'A' ≤ c ∧ c ≤ 'Z' then some (c.toNat - 'A'.toNat + 10)
    else none
  value?.filter (· < base)

/-- Is the character a decimal digit? -/
def isDigit (c : Char) : Bool := (digitValue? c).isSome

/-- The number that a row of digits writes in a base; the row may be empty. -/
def ofDigits? (base : Nat) (row : List Char) : Option Nat :=
  row.foldl (fun total c => do return (← total) * base + (← digitIn? base c)) (some 0)

/-- The number that a non-empty row of digits writes. -/
def ofDigitRow? (base : Nat) : List Char → Option Nat
  | [] => none
  | row => ofDigits? base row

/-- Split off a leading sign; `true` is minus. -/
def splitSign : List Char → Bool × List Char
  | '-' :: rest => (true, rest)
  | '+' :: rest => (false, rest)
  | text => (false, text)

/-- Split off the digits at the front. -/
def splitDigits (text : List Char) : List Char × List Char :=
  (text.takeWhile isDigit, text.dropWhile isDigit)

/-- Remove single underscores that stand between digits; `none` if one stands elsewhere. -/
def dropGroupMarks : List Char → Option (List Char)
  | [] => some []
  | '_' :: _ => none
  | c :: '_' :: d :: rest =>
    if isDigit c && isDigit d then (dropGroupMarks (d :: rest)).map (c :: ·) else none
  | [_, '_'] => none
  | c :: rest => (dropGroupMarks rest).map (c :: ·)

/-- The parts of a decimal: digits before the point, digits after it, and the exponent. -/
structure DecimalText where
  whole : List Char
  places : List Char
  exponent : Int

/-- Read an exponent: a letter, a sign and digits; nothing is exponent zero. -/
def readExponent? : List Char → Option Int
  | [] => some 0
  | mark :: rest =>
    if mark = 'e' ∨ mark = 'E' then
      let (negative, row) := splitSign rest
      (ofDigitRow? 10 row).map fun n => if negative then -(n : Int) else n
    else none

/-- Read digits with an optional point and an optional exponent; at least one digit stands
before the exponent. -/
def readDecimal? (text : List Char) : Option DecimalText :=
  let (whole, rest) := splitDigits text
  let (places, rest) := match rest with
    | '.' :: tail => splitDigits tail
    | _ => ([], rest)
  if whole.isEmpty && places.isEmpty then none
  else (readExponent? rest).map (⟨whole, places, ·⟩)

/-- The double nearest to a decimal text. -/
def DecimalText.toDouble (d : DecimalText) (negative : Bool) : Binary64 :=
  let digits := (ofDigits? 10 (d.whole ++ d.places)).getD 0
  Binary64.ofDecimal negative digits (d.exponent - d.places.length)

/-- Lower-case the letters from `A` to `Z`. -/
def lowerLetters (text : List Char) : List Char := text.map Char.toLower

/-- Read a double without group marks: a decimal, an infinity or `nan`, with an optional sign. -/
def readPlainDouble? (text : List Char) : Option Binary64 :=
  let (negative, rest) := splitSign text
  let word := lowerLetters rest
  if word = "inf".toList ∨ word = "infinity".toList then some (.infinite negative)
  else if word = "nan".toList then some .nan
  else (readDecimal? rest).map (·.toDouble negative)

/-- Read a double, whose digits may be grouped. -/
def readDouble? (text : List Char) : Option Binary64 :=
  (dropGroupMarks text).bind readPlainDouble?

/-- Read a whole number in base ten with an optional sign. -/
def readInt? (text : List Char) : Option Int :=
  let (negative, rest) := splitSign text
  do
    let plain ← dropGroupMarks rest
    let n ← ofDigitRow? 10 plain
    return if negative then -(n : Int) else n

end TaintFlow.Number

/-!
## Lenient texts of numbers

Readers of loosely typed data take more spellings of a number than a formula
does: blanks around it, zeros in front, underscores between its digits, and for
a whole number a point with zeros behind it.  A text with underscores is read
without them; it neither begins nor ends with one, and no two stand together.
-/

namespace TaintFlow.Number.Lenient

/-- Remove underscores; `none` if one stands at an end or beside another. -/
def dropUnderscores (text : List Char) : Option (List Char) :=
  let apart := (text.zip (text.drop 1)).all fun (a, b) => a != '_' || b != '_'
  if text.head? == some '_' || text.getLast? == some '_' || !apart then none
  else some (text.filter (· ≠ '_'))

/-- Read a double.  Blanks may stand around it, or underscores inside it, but not both. -/
def double? (text : List Char) : Option Binary64 :=
  match readPlainDouble? (Text.strip text) with
  | some x => some x
  | none => (dropUnderscores text).bind readPlainDouble?

/-- Drop the zeros and underscores behind a leading zero, up to a digit, a minus sign or a
point; the zero before a point stays. -/
def dropZeros (last : Char) : List Char → Option (List Char)
  | [] => some [last]
  | c :: rest =>
    if c = '0' ∨ c = '_' then dropZeros c rest
    else if c = '-' ∨ isDigit c then some (c :: rest)
    else if c = '.' then some (last :: c :: rest)
    else none

/-- Drop the zeros in front of a whole number. -/
def dropLeadingZeros : List Char → Option (List Char)
  | '0' :: rest => dropZeros '0' rest
  | c :: rest => if c = '-' ∨ isDigit c then some (c :: rest) else none
  | [] => none

/-- Drop a point with one zero or more behind it. -/
def dropZeroPlaces (text : List Char) : List Char :=
  let places := text.reverse.takeWhile (· = '0')
  match places, text.reverse.drop places.length with
  | _ :: _, '.' :: whole => whole.reverse
  | _, _ => text

/-- What keeps a text from being a whole number. -/
inductive WholeDefect where
  | malformed
  | tooLong
  deriving DecidableEq

/-- Read a whole number in its shortest spelling; its sign counts toward its length. -/
def shortWhole (text : List Char) : Except WholeDefect Int :=
  let (sign, row) := if text.head? == some '-' then (text.take 1, text.drop 1) else ([], text)
  let digits := row.takeWhile isDigit
  if digits.length ≠ 1 ∧ digits.head? = some '0' then .error .malformed
  else if maxDigits < sign.length + digits.length then .error .tooLong
  else if digits.length ≠ row.length then .error .malformed
  else
    match ofDigitRow? 10 digits with
    | some n => .ok (if sign.isEmpty then n else -(n : Int))
    | none => .error .malformed

/-- Remove from a whole number all that its shortest spelling lacks. -/
def shorten (text : List Char) : Option (List Char) := do
  let row := if text.head? == some '+' then text.drop 1 else text
  if text.head? == some '+' ∧ row.head? == some '-' then none
  else dropUnderscores (dropZeroPlaces (← dropLeadingZeros row))

/-- Read a whole number. -/
def whole (text : List Char) : Except WholeDefect Int :=
  match shorten (Text.strip text) with
  | some short => shortWhole short
  | none => .error .malformed

end TaintFlow.Number.Lenient
