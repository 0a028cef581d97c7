import TaintFlow.Number.Binary64
import TaintFlow.Data.Assoc
import TaintFlow.Number.Reading
import TaintFlow.Number.Notation
import TaintFlow.Text.CodePoints
import TaintFlow.Text.Quoted

/-!
# JSON values

A JSON value keeps whole numbers and doubles apart and lists the members of an
object in the order of the text.
-/

namespace TaintFlow

/-- A JSON value. -/
inductive Json where
  | null
  | bool (b : Bool)
  | int (n : Int)
  | float (x : Number.Binary64)
  | text (s : String)
  | array (items : List Json)
  | object (members : List (String × Json))
  deriving Inhabited

namespace Json

/-- The value of a member. -/
def member? (key : String) : Json → Option Json
  | .object members => Assoc.find? key members
  | _ => none

/-- The items of an array; nothing else has any. -/
def items : Json → List Json
  | .array items => items
  | _ => []

/-- The members of an object; nothing else has any. -/
def members : Json → List (String × Json)
  | .object members => members
  | _ => []

/-- A text, if the value is one. -/
def text? : Json → Option String
  | .text s => some s
  | _ => none

/-- A whole number, if the value is one. -/
def int? : Json → Option Int
  | .int n => some n
  | _ => none

mutual

/-- The parts of a value that have no parts; the names of members are texts. -/
def leaves : Json → List Json
  | .array items => leavesOfItems items
  | .object members => leavesOfMembers members
  | other => [other]

/-- The parts of the items of an array. -/
def leavesOfItems : List Json → List Json
  | [] => []
  | item :: rest => leaves item ++ leavesOfItems rest

/-- The names of the members of an object and the parts of their values. -/
def leavesOfMembers : List (String × Json) → List Json
  | [] => []
  | (key, value) :: rest => .text key :: leaves value ++ leavesOfMembers rest

end

end Json

end TaintFlow

/-!
## Writing JSON

The text of a JSON value has only ASCII characters and, unless an indent is
asked for, no line break.  A text is escaped character by character; what lies
above the basic plane is a pair of escapes.
-/

namespace TaintFlow.Json

open Number

/-- The escape of one sixteen-bit unit. -/
def unitEscape (n : Nat) : List Char := '\\' :: 'u' :: Text.hexPadded 4 n

/-- One code point inside a quoted text. -/
def escapeCode (n : Nat) : List Char :=
  if n = '"'.toNat ∨ n = '\\'.toNat then ['\\', Char.ofNat n]
  else if n = 0xA then ['\\', 'n']
  else if n = 0xD then ['\\', 'r']
  else if n = 0x9 then ['\\', 't']
  else if n = 0x8 then ['\\', 'b']
  else if n = 0xC then ['\\', 'f']
  else if 0x20 ≤ n ∧ n < 0x7F then [Char.ofNat n]
  else if n < 0x10000 then unitEscape n
  else
    let high := (n - 0x10000) / 0x400
    let low := (n - 0x10000) % 0x400
    unitEscape (0xD800 + high) ++ unitEscape (0xDC00 + low)

/-- A quoted text. -/
def writeText (s : String) : List Char :=
  '"' :: (s.toList.flatMap (fun c => escapeCode (Text.codeOf c)) ++ ['"'])

/-- Doubles are written in their default form; the special values have names. -/
def floatStyle : FloatStyle := { infinityText := "Infinity", nanText := "NaN" }

/-- How the items of arrays and objects are set apart: nothing, or lines with an indent. -/
inductive Layout where
  | line
  | indented (width : Nat)

/-- What stands before the first item, between items, and after the last, at a depth. -/
def Layout.breakAt (layout : Layout) (depth : Nat) : List Char :=
  match layout with
  | .line => []
  | .indented width => '\n' :: List.replicate (width * depth) ' '

/-- What separates two items. -/
def Layout.between (layout : Layout) (depth : Nat) : List Char :=
  match layout with
  | .line => [',', ' ']
  | .indented _ => ',' :: layout.breakAt depth

mutual

/-- The text of a value that stands at a depth. -/
def writeAt (layout : Layout) (depth : Nat) : Json → List Char
  | .null => "null".toList
  | .bool b => (if b then "true" else "false").toList
  | .int n => (toString n).toList
  | .float x => floatStyle.write x
  | .text s => writeText s
  | .array [] => ['[', ']']
  | .array (item :: rest) =>
    '[' :: layout.breakAt (depth + 1) ++ writeAt layout (depth + 1) item ++
      (writeItems layout (depth + 1) rest ++ (layout.breakAt depth ++ [']']))
  | .object [] => ['\x7b', '\x7d']
  | .object ((key, value) :: rest) =>
    '\x7b' :: layout.breakAt (depth + 1) ++ writeText key ++ (':' :: ' ' ::
      writeAt layout (depth + 1) value) ++
      (writeMembers layout (depth + 1) rest ++ (layout.breakAt depth ++ ['\x7d']))

/-- The text of the items after the first. -/
def writeItems (layout : Layout) (depth : Nat) : List Json → List Char
  | [] => []
  | item :: rest =>
    layout.between depth ++ writeAt layout depth item ++ writeItems layout depth rest

/-- The text of the members after the first. -/
def writeMembers (layout : Layout) (depth : Nat) : List (String × Json) → List Char
  | [] => []
  | (key, value) :: rest =>
    layout.between depth ++ writeText key ++ (':' :: ' ' :: writeAt layout depth value) ++
      writeMembers layout depth rest

end

/-- The text of a value, in one line or with an indent. -/
def write (value : Json) (layout : Layout := .line) : List Char := writeAt layout 0 value

/-- The text of a value as a string. -/
def print (value : Json) (layout : Layout := .line) : String := String.ofList (value.write layout)

/-! ### Numbers that are too long -/

/-- Has every whole number in a value few enough digits to be written? -/
def isWritable (value : Json) : Bool :=
  value.leaves.all fun leaf =>
    match leaf with
    | .int n => Number.isWritable n
    | _ => true

/-- The value, unless a number in it is too long to be written. -/
def checkWritable (value : Json) : Except Mishap Json :=
  if value.isWritable then .ok value else .error Number.unwritable

end TaintFlow.Json
