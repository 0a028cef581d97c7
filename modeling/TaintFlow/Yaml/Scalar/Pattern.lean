import TaintFlow.Yaml.Cursor
import TaintFlow.Number.Reading

/-!
# How numbers are written

The forms by which a plain scalar is known to be a number.  A whole number is
written in base two, eight, ten or sixteen or as counts of sixtieths between
colons; a decimal has a point, and an exponent of it has a sign.  Low lines may
stand between digits.
-/

namespace TaintFlow.Yaml.Pattern

open Number

/-- Drop one sign. -/
def unsigned (text : List Char) : List Char := (splitSign text).2

/-- Is every character one of a class or a low line? -/
def spaced (p : Char → Bool) (text : List Char) : Bool := text.all fun c => p c || c == '_'

/-- A digit, then digits and low lines. -/
def isDigitRun : List Char → Bool
  | [] => false
  | c :: rest => isDigit c && spaced isDigit rest

/-- A number of one or two digits below sixty. -/
def isSixtieth : List Char → Bool
  | [c] => isDigit c
  | [c, d] => '0' ≤ c && c ≤ '5' && isDigit d
  | _ => false

/-- Is the text of a plain scalar a whole number? -/
def isWhole (text : List Char) : Bool :=
  let row := unsigned text
  match row with
  | '0' :: 'b' :: rest => !rest.isEmpty && spaced (fun c => c == '0' || c == '1') rest
  | '0' :: 'x' :: rest => !rest.isEmpty && spaced (fun c => (digitIn? 16 c).isSome) rest
  | '0' :: rest => spaced (fun c => '0' ≤ c && c ≤ '7') rest
  | _ =>
    match row.splitOn ':' with
    | [digits] => isDigitRun digits
    | digits :: parts => isDigitRun digits && parts.all isSixtieth
    | [] => false

/-- Is this nothing, or an exponent with its sign? -/
def isExponent : List Char → Bool
  | [] => true
  | mark :: sign :: digits =>
    (mark == 'e' || mark == 'E') && (sign == '+' || sign == '-') &&
      !digits.isEmpty && digits.all isDigit
  | _ => false

/-- Is the text of a plain scalar a decimal? -/
def isDecimal (text : List Char) : Bool :=
  let row := unsigned text
  let front := row.takeWhile (· != '.')
  match row.drop front.length with
  | [] => false
  | _ :: places =>
    let tail := places.dropWhile fun c => isDigit c || c == '_'
    let digits := places.take (places.length - tail.length)
    if front.isEmpty then
      ["inf", "Inf", "INF"].contains (String.ofList places) ||
        (row == text &&
          (["nan", "NaN", "NAN"].contains (String.ofList places) ||
            (isDigitRun digits && isExponent tail)))
    else
      match front.splitOn ':' with
      | [whole] => isDigitRun whole && isExponent tail
      | whole :: parts => isDigitRun whole && parts.all isSixtieth && tail.isEmpty
      | [] => false

end TaintFlow.Yaml.Pattern
