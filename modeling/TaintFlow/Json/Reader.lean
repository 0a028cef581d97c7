import TaintFlow.Json.Basic
import TaintFlow.Number.Reading
import TaintFlow.Text.CodePoints

/-!
# Reading JSON

The reader takes one value from the front of a text and gives back the rest.
Of two members with one name the later value stays, at the place of the
earlier.  A number with a point or an exponent is a double, any other a whole
number, which must not be too long; `NaN`, `Infinity` and `-Infinity` are
doubles as well.
-/

namespace TaintFlow.Json

open Number

/-- Drop the blanks that may stand between the parts of a text. -/
def skipBlanks (input : List Char) : List Char :=
  input.dropWhile fun c => c = ' ' ∨ c = '\t' ∨ c = '\n' ∨ c = '\r'

/-- The number that four hexadecimal digits write, and the rest. -/
def readUnit : List Char → Option (Nat × List Char)
  | a :: b :: c :: d :: rest => (ofDigitRow? 16 [a, b, c, d]).map (·, rest)
  | _ => none

/-- Read the rest of a quoted text, the opening quote being gone.  An escaped half of a character
is joined with the second half behind it. -/
def readQuoted : Nat → List Char → Option (List Char × List Char)
  | 0, _ => none
  | _ + 1, [] => none
  | fuel + 1, c :: rest =>
    if c = '"' then some ([], rest)
    else if c = '\\' then
      match rest with
      | [] => none
      | e :: rest =>
        let plain (d : Char) := (readQuoted fuel rest).map fun (s, r) => (d :: s, r)
        if e = '"' ∨ e = '\\' ∨ e = '/' then plain e
        else if e = 'n' then plain '\n'
        else if e = 'r' then plain '\r'
        else if e = 't' then plain '\t'
        else if e = 'b' then plain '\x08'
        else if e = 'f' then plain '\x0c'
        else if e = 'u' then
          match readUnit rest with
          | none => none
          | some (high, rest) =>
            let alone := (readQuoted fuel rest).map fun (s, r) => (Text.charOf high :: s, r)
            match rest with
            | '\\' :: 'u' :: tail =>
              if Text.isFirstHalf high then
                match readUnit tail with
                | none => none
                | some (low, tail) =>
                  if Text.isSecondHalf low then
                    (readQuoted fuel tail).map fun (s, r) =>
                      (Char.ofNat (Text.joined high low) :: s, r)
                  else alone
              else alone
            | _ => alone
        else none
    else if c.toNat < 0x20 then none
    else (readQuoted fuel rest).map fun (s, r) => (c :: s, r)

/-- Is the character part of a written number? -/
def isNumberChar (c : Char) : Bool :=
  isDigit c || c = '-' || c = '+' || c = '.' || c = 'e' || c = 'E'

/-- Do the digits before the point have the one form that is allowed? -/
def isWholePart : List Char → Bool
  | [] => false
  | ['0'] => true
  | c :: _ => c ≠ '0'

/-- The number that a run of number characters without its sign writes. -/
def ofUnsignedText? (negative : Bool) (row : List Char) : Option Json :=
  let whole := row.takeWhile isDigit
  if !isWholePart whole then none
  else if whole.length = row.length then
    if maxDigits < row.length then none
    else (ofDigitRow? 10 row).map fun (n : Nat) => .int (if negative then -(n : Int) else n)
  else
    match row.drop whole.length with
    | '.' :: c :: _ =>
      if isDigit c then (readDecimal? row).map fun d => .float (d.toDouble negative) else none
    | '.' :: [] => none
    | _ => (readDecimal? row).map fun d => .float (d.toDouble negative)

/-- The number that a run of number characters writes. -/
def ofNumberText? : List Char → Option Json
  | '-' :: row => ofUnsignedText? true row
  | row => ofUnsignedText? false row

/-- Read a number. -/
def readNumber (input : List Char) : Option (Json × List Char) :=
  (ofNumberText? (input.takeWhile isNumberChar)).map (·, input.dropWhile isNumberChar)

/-- The rest of a text after a word, if the word stands at its front. -/
def afterWord? (word : List Char) (input : List Char) : Option (List Char) :=
  if word.isPrefixOf input then some (input.drop word.length) else none

/-- The values that are written as a word. -/
def words : List (List Char × Json) :=
  [("null".toList, .null), ("true".toList, .bool true), ("false".toList, .bool false),
   ("NaN".toList, .float .nan), ("Infinity".toList, .float (.infinite false)),
   ("-Infinity".toList, .float (.infinite true))]

/-- Read a value that is written as a word, or a number. -/
def readScalar (input : List Char) : Option (Json × List Char) :=
  match words.findSome? fun (word, value) => (afterWord? word input).map (value, ·) with
  | some found => some found
  | none => readNumber input

mutual

/-- Read one value from the front of a text. -/
def readValue : Nat → List Char → Option (Json × List Char)
  | 0, _ => none
  | fuel + 1, input =>
    match input with
    | '"' :: rest => (readQuoted (rest.length + 1) rest).map fun (s, r) =>
      (.text (String.ofList s), r)
    | '[' :: rest =>
      match skipBlanks rest with
      | ']' :: rest => some (.array [], rest)
      | rest => (readItems fuel rest).map fun (items, r) => (.array items, r)
    | '\x7b' :: rest =>
      match skipBlanks rest with
      | '\x7d' :: rest => some (.object [], rest)
      | rest => (readMembers fuel rest).map fun (members, r) => (.object (Assoc.ofList members), r)
    | _ => readScalar input

/-- Read the items of an array up to its closing bracket. -/
def readItems : Nat → List Char → Option (List Json × List Char)
  | 0, _ => none
  | fuel + 1, input =>
    match readValue fuel (skipBlanks input) with
    | none => none
    | some (item, rest) =>
      match skipBlanks rest with
      | ',' :: rest => (readItems fuel rest).map fun (items, r) => (item :: items, r)
      | ']' :: rest => some ([item], rest)
      | _ => none

/-- Read the members of an object up to its closing brace. -/
def readMembers : Nat → List Char → Option (List (String × Json) × List Char)
  | 0, _ => none
  | fuel + 1, input =>
    match skipBlanks input with
    | '"' :: rest =>
      match readQuoted (rest.length + 1) rest with
      | none => none
      | some (key, rest) =>
        match skipBlanks rest with
        | ':' :: rest =>
          match readValue fuel (skipBlanks rest) with
          | none => none
          | some (value, rest) =>
            match skipBlanks rest with
            | ',' :: rest =>
              (readMembers fuel rest).map fun (members, r) =>
                ((String.ofList key, value) :: members, r)
            | '\x7d' :: rest => some ([(String.ofList key, value)], rest)
            | _ => none
        | _ => none
    | _ => none

end

/-- The most collections that may be open at one place of a text. -/
def maxNested : Nat := 975

/-- The bracket that opens one collection too many, if one does; some are open already, and so
may be a quoted text. -/
def overDeepFrom : Nat → Bool → List Char → Option Char
  | _, _, [] => none
  | nested, quoted, '\\' :: _ :: rest => overDeepFrom nested quoted rest
  | nested, quoted, c :: rest =>
    if c = '"' then overDeepFrom nested (!quoted) rest
    else if quoted then overDeepFrom nested quoted rest
    else if c = '[' ∨ c = '\x7b' then
      if maxNested ≤ nested then some c else overDeepFrom (nested + 1) quoted rest
    else if c = ']' ∨ c = '\x7d' then overDeepFrom (nested - 1) quoted rest
    else overDeepFrom nested quoted rest

/-- The bracket of a text that opens one collection too many, if one does. -/
def overDeep? (input : String) : Option Char := overDeepFrom 0 false input.toList

/-- Read a text that holds one value and blanks around it. -/
def read (input : List Char) : Option Json :=
  match readValue (2 * input.length + 2) (skipBlanks input) with
  | some (value, rest) => if (skipBlanks rest).isEmpty then some value else none
  | none => none

/-- Read a string that holds one value. -/
def ofString? (input : String) : Option Json := read input.toList

end TaintFlow.Json
