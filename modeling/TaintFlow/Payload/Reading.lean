import TaintFlow.Payload.Equality
import TaintFlow.Payload.Show
import TaintFlow.Data.Issue
import TaintFlow.Data.Assoc
import TaintFlow.Data.Enumeration
import TaintFlow.Number.Reading
import TaintFlow.Text.Utf8

/-!
# Reading loosely typed data

Readers that take a payload for a value of some type.  They are lenient: a
number may be written as text, a truth value as a number or a word, a double
that is whole may stand for a whole number.  What cannot be read is an issue at
its place.
-/

namespace TaintFlow.Payload

open Number

/-- The text that a scalar holds, as readers of other types take it; `defect` is what bytes that
spell no text are to them, and `none` is no text. -/
def scalarText? (defect : Defect) : Payload → Checked (Option (List Char))
  | .text s =>
    if Text.hasHalf s.toList then Checked.issue .textEncoding else .ok (some s.toList)
  | .bytes b =>
    match Text.Utf8.decode? b with
    | some spelt => .ok (some spelt.toList)
    | none => Checked.issue defect
  | _ => .ok none

/-- Read a text that is to be measured or taken for a value of another type, so that every code
point of it has to be a character. -/
def readWholeText (payload : Payload) : Checked String := do
  match ← payload.scalarText? .textEncoding with
  | some chars => return String.ofList chars
  | none => Checked.issue .textType

/-- Read a text. -/
def readText : Payload → Checked String
  | .text s => .ok s
  | other => readWholeText other

/-- Read a text that is not empty. -/
def readNonempty (payload : Payload) : Checked String := do
  let read ← readWholeText payload
  if read = "" then Checked.issue .textTooShort else return read

/-- Does a whole number fit a machine word? -/
def fitsWord (n : Int) : Bool := -0x8000000000000000 ≤ n && n < 0x8000000000000000

/-- The whole number that a double is, if it is one; `large` is what one is that does not fit
a machine word. -/
def wholeOf (large : Defect) : Binary64 → Checked Int
  | .finite x =>
    match x.toInt? with
    | some n =>
      if fitsWord n ∧ n ≠ -0x8000000000000000 then .ok n else Checked.issue large
    | none => Checked.issue .intFromFloat
  | _ => Checked.issue .finiteNumber

/-- Read a whole number. -/
def readWhole : Payload → Checked Int
  | .int n => .ok n
  | .bool b => .ok (if b then 1 else 0)
  | .float x => wholeOf .intParsingSize x
  | .text s =>
    if Text.hasHalf s.toList then Checked.issue .textEncoding
    else match Lenient.whole s.toList with
      | .ok n => .ok n
      | .error .tooLong => Checked.issue .intParsingSize
      | .error .malformed => Checked.issue .intParsing
  | _ => Checked.issue .intType

/-- Read a double. -/
def readDouble : Payload → Checked Binary64
  | .float x => .ok x
  | .int n =>
    match Binary64.ofInt? n with
    | some x => .ok x
    | none => Checked.issue .floatType
  | .bool b => .ok (Binary64.ofInt (if b then 1 else 0))
  | other => do
    match ← other.scalarText? .floatParsing with
    | some chars =>
      match Lenient.double? chars with
      | some x => return x
      | none => Checked.issue .floatParsing
    | none => Checked.issue .floatType

/-- Read a number of seconds, which is above zero. -/
def readSeconds (payload : Payload) : Checked Binary64 := do
  let x ← readDouble payload
  if x.isPositive then return x else Checked.issue .greaterThan

/-- The words for false and for true. -/
def falseWords : List String := ["0", "off", "f", "false", "n", "no"]

/-- The words for true. -/
def trueWords : List String := ["1", "on", "t", "true", "y", "yes"]

/-- The truth value of a whole number. -/
def truthOf (n : Int) : Checked Bool :=
  if n = 0 then .ok false else if n = 1 then .ok true else Checked.issue .boolParsing

/-- Read a truth value. -/
def readTruth : Payload → Checked Bool
  | .bool b => .ok b
  | .int n => if fitsWord n then truthOf n else Checked.issue .boolType
  | .float x =>
    match wholeOf .boolType x with
    | .ok n => truthOf n
    | .error _ => Checked.issue .boolType
  | other => do
    match ← other.scalarText? .boolParsing with
    | some chars =>
      let word := String.ofList (lowerLetters chars)
      if falseWords.contains word then return false
      else if trueWords.contains word then return true
      else Checked.issue .boolParsing
    | none => Checked.issue .boolType

/-- Read the name of an alternative. -/
def readName (α : Type) [Enumeration α] (payload : Payload) : Checked α := do
  match ← payload.scalarText? .enumeration with
  | some chars =>
    match Enumeration.ofName? (String.ofList chars) with
    | some a => return a
    | none => Checked.issue .enumeration
  | none => Checked.issue .enumeration

/-- Read a sequence. -/
def readItems : Payload → Checked (List Payload)
  | .list items | .tuple items | .set items => .ok items
  | _ => Checked.issue .listType

/-- Read each item of a sequence. -/
def readEach {α : Type} (read : Payload → Checked α) (payload : Payload) : Checked (List α) := do
  Checked.each read (← readItems payload)

/-- Read each item of a sequence that is not empty. -/
def readSome {α : Type} (read : Payload → Checked α) (payload : Payload) : Checked (List α) := do
  let items ← readEach read payload
  if items.isEmpty then Checked.issue .tooShort else return items

/-- Read what may be left out as nothing. -/
def readOptional {α : Type} (read : Payload → Checked α) : Payload → Checked (Option α)
  | .null => .ok none
  | other => (read other).map some

/-- The step to an entry of a mapping. -/
def placeOf : Payload → Place
  | .text s => .field (if Text.hasHalf s.toList then "<unprintable str object>" else s)
  | .int n => if fitsWord n then .index n else .field (toString n)
  | .bool b => .index (if b then 1 else 0)
  | other => .field other.shown

/-- Read the text keys of a mapping. -/
def readKeyed : Payload → Checked (Assoc String Payload)
  | .map entries =>
    (Checked.all (entries.map fun (key, item) =>
      (((readText key).under (.field "[key]")).under (placeOf key)).map (·, item))).map
        Assoc.ofList
  | _ => Checked.issue .dictType

/-- Read a field that has to be there. -/
def field {α : Type} (name : String) (read : Payload → Checked α) (entries : Entries) :
    Checked α :=
  match Entries.text? name entries with
  | some payload => (read payload).under (.field name)
  | none => (Checked.issue .missing).under (.field name)

/-- Read a field that has a default. -/
def fieldOr {α : Type} (name : String) (usual : α) (read : Payload → Checked α)
    (entries : Entries) : Checked α :=
  match Entries.text? name entries with
  | some payload => (read payload).under (.field name)
  | none => .ok usual

end TaintFlow.Payload
