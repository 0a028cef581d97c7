import TaintFlow.Template.Spec
import TaintFlow.Payload.Equality
import TaintFlow.Payload.Show

/-!
# Percent templates

The texts of notices hold fields that start with a percent sign: an optional key
in brackets, flags, a width, a precision and a one-letter code.  Fields without
a key take the arguments in turn, and each argument has to be taken.
-/

namespace TaintFlow.Template.Percent

open Number

/-- What the fields of a template are filled with. -/
inductive Arguments where
  | row (items : List Payload)
  | keyed (entries : Payload.Entries)

/-- A field: its key, its flags, its width and precision, and its code. -/
structure Field where
  key : Option String
  flags : List Char
  width : Option Nat
  precision : Option Nat
  code : Char

namespace Field

/-- Does the field have a flag? -/
def has (f : Field) (flag : Char) : Bool := f.flags.contains flag

/-- The field as a specification, for a number if `numeric`. -/
def toSpec (f : Field) (numeric : Bool) : Spec :=
  let zero := numeric && f.has '0'
  { fill := if zero && !f.has '-' then '0' else ' '
    alignment := if f.has '-' then .left else if zero then .afterSign else .right
    sign := if !numeric then none else if f.has '+' then some .plus
      else if f.has ' ' then some .space else none
    unsignedZero := false
    alternate := f.has '#'
    width := f.width
    grouping := .none
    precision := f.precision
    code := some f.code }

/-- Lay out a text. -/
def layText (f : Field) (text : List Char) : List Char :=
  let shown := match f.precision with
    | some count => text.take count
    | none => text
  (f.toSpec false).layNumber ⟨false, [], [], shown⟩

/-- Lay out a whole number; the precision is the least number of digits. -/
def layWhole (f : Field) (n : Int) : List Char :=
  let (base, mark) := baseOf f.code
  let digits := Nat.toDigits base n.natAbs
  let digits := if f.code = 'X' then digits.map Char.toUpper else digits
  let padding : Int := (f.precision.getD 0 : Int) - digits.length
  let lead := if f.has '#' then mark else []
  (f.toSpec true).layNumber ⟨n < 0, lead, row '0' padding ++ digits, []⟩

end Field

/-- A mishap of the wrong type. -/
def needs (code : Char) (what : String) (given : Payload) : Mishap :=
  .badType s!"%{code} format: {what} is required, not {given.typeName}"

/-- The whole part of a double. -/
def wholePart (x : Binary64) : Except Mishap Int :=
  match x with
  | .finite x =>
    let (num, den) := x.ratio
    .ok (if x.negative then -((num / den : Nat) : Int) else ((num / den : Nat) : Int))
  | .infinite _ => .error (.tooLarge "cannot convert float infinity to integer")
  | .nan _ => .error (.badValue "cannot convert float NaN to integer")

/-- Is every number in a payload short enough to be written? -/
def checkWritable (item : Payload) : Except Mishap Unit :=
  if item.isWritable then .ok () else .error unwritable

/-- Is there room for the digits of a whole number? -/
def checkDigits (f : Field) : Except Mishap Unit :=
  if f.precision.any (roomLimit < ·) then .error .noMemory else .ok ()

/-- The text of an argument in a field. -/
def fillOne (f : Field) (item : Payload) : Except Mishap (List Char) := do
  if f.code = 's' ∨ f.code = 'r' ∨ f.code = 'a' then
    checkWritable item
    let text := if f.code = 's' then item.plain else item.shown
    return f.layText (if f.code = 'a' then Text.asciiOnly text.toList else text.toList)
  else if f.code = 'd' ∨ f.code = 'i' ∨ f.code = 'u' then
    match item, item.asInt? with
    | _, some n =>
      checkWritable item
      checkDigits f
      return f.layWhole n
    | .float x, _ =>
      let n ← wholePart x
      checkDigits f
      return f.layWhole n
    | _, _ => throw (needs f.code "a real number" item)
  else if f.code = 'x' ∨ f.code = 'X' ∨ f.code = 'o' then
    match item.asInt? with
    | some n =>
      checkDigits f
      return f.layWhole n
    | none => throw (needs f.code "an integer" item)
  else if (doubleCodes.filter (· ≠ '%')).contains f.code then
    match item, item.asInt? with
    | .float x, _ => ((f.toSpec true).layDouble x).mapError Fault.mishap
    | _, some n =>
      match Binary64.ofInt? n with
      | some x => ((f.toSpec true).layDouble x).mapError Fault.mishap
      | none => throw (.tooLarge "int too large to convert to float")
    | _, _ => throw (.badType s!"must be real number, not {item.typeName}")
  else if f.code = 'c' then
    match item, item.asInt? with
    | .text s, _ =>
      match s.toList with
      | [c] => return { f with precision := none }.layText [c]
      | _ => throw (.badType "%c requires int or char")
    | _, some n =>
      if n < 0 ∨ 0x110000 ≤ n then throw (.tooLarge "%c arg not in range(0x110000)")
      else return { f with precision := none }.layText [Text.charOf n.toNat]
    | _, _ => throw (.badType "%c requires int or char")
  else
    throw (.badValue s!"unsupported format character '{f.code}'")

/-- The state of filling a template: the arguments that are left, and whether one was asked for
by a key. -/
structure State where
  left : List Payload
  whole : Option Payload.Entries

/-- Take the next argument. -/
def next (s : State) : Except Mishap (Payload × State) :=
  match s.left with
  | item :: rest => .ok (item, { s with left := rest })
  | [] => .error (.badType "not enough arguments for format string")

/-- Is there room for a width and a precision? -/
def checkRoom (width precision : Option Nat) : Except Mishap Unit := do
  if width.any (numberLimit < ·) then throw (.badValue "width too big")
  if precision.any (precisionLimit < ·) then throw (.badValue "precision too big")
  if width.any (roomLimit < ·) then throw .noMemory

/-- Read a width or a precision: a number, or a star for the next argument. -/
def readCount (s : State) (text : List Char) :
    Except Mishap (Option Int × List Char × State) :=
  match text with
  | '*' :: rest => do
    let (item, s) ← next s
    match item.asInt? with
    | some n => return (some n, rest, s)
    | none => throw (.badType "* wants int")
  | _ =>
    let (digits, rest) := splitDigits text
    .ok ((ofDigitRow? 10 digits).map Int.ofNat, rest, s)

/-- The text of a key up to its closing bracket, which may hold brackets itself. -/
def readKey (depth : Nat) : List Char → Option (List Char × List Char)
  | [] => none
  | '(' :: rest => (readKey (depth + 1) rest).map fun (key, rest) => ('(' :: key, rest)
  | ')' :: rest =>
    match depth with
    | 0 => some ([], rest)
    | depth + 1 => (readKey depth rest).map fun (key, rest) => (')' :: key, rest)
  | c :: rest => (readKey depth rest).map fun (key, rest) => (c :: key, rest)

/-- Take the argument of a key, which is then all that there is. -/
def takeKey (s : State) (text : List Char) :
    Except Mishap (Option String × List Char × State) := do
  match text with
  | '(' :: rest =>
    match s.whole with
    | none => throw (.badType "format requires a mapping")
    | some entries =>
      match readKey 0 rest with
      | none => throw (.badValue "incomplete format key")
      | some (key, rest) =>
        let name := String.ofList key
        match Payload.Entries.text? name entries with
        | some item => return (some name, rest, { s with left := [item] })
        | none => throw (.noKey (Text.quoted name))
  | _ => return (none, text, s)

/-- Fill the field at the front of a text, its percent sign being gone.  A second percent sign
stands for itself only if nothing stands between the two. -/
def fillField (s : State) (text : List Char) :
    Except Mishap (List Char × List Char × State) := do
  let (key, rest, s) ← takeKey s text
  let isFlag (c : Char) : Bool := ['-', '+', ' ', '#', '0'].contains c
  let flags := rest.takeWhile isFlag
  let (width, rest, s) ← readCount s (rest.drop flags.length)
  let flags := if (width.getD 0) < 0 then '-' :: flags else flags
  let (precision, rest, s) ← match rest with
    | '.' :: rest => do
      let (count, rest, s) ← readCount s rest
      pure (some (count.getD 0).toNat, rest, s)
    | _ => pure (none, rest, s)
  let rest := match rest with
    | c :: tail => if c = 'h' ∨ c = 'l' ∨ c = 'L' then tail else rest
    | [] => []
  match rest with
  | [] => throw (.badValue "incomplete format")
  | code :: rest =>
    let width := width.map Int.natAbs
    checkRoom width precision
    let (item, s) ← next s
    let filled ← fillOne ⟨key, flags, width, precision, code⟩ item
    return (filled, rest, s)

/-- Fill the fields of a text. -/
def fillAll (s : State) : Nat → List Char → Except Mishap (List Char × State)
  | 0, _ => .ok ([], s)
  | _ + 1, [] => .ok ([], s)
  | fuel + 1, '%' :: '%' :: rest => do
    let (more, s) ← fillAll s fuel rest
    return ('%' :: more, s)
  | fuel + 1, c :: rest => do
    if c = '%' then
      let (filled, rest, s) ← fillField s rest
      let (more, s) ← fillAll s fuel rest
      return (filled ++ more, s)
    else
      let (more, s) ← fillAll s fuel rest
      return (c :: more, s)

/-- Fill a template. -/
def fill (template : String) (arguments : Arguments) : Except Mishap String := do
  let s : State := match arguments with
    | .row items => ⟨items, none⟩
    | .keyed entries => ⟨[.map entries], some entries⟩
  let (filled, s) ← fillAll s (template.length + 1) template.toList
  if s.whole.isNone && !s.left.isEmpty then
    throw (.badType "not all arguments converted during string formatting")
  else return String.ofList filled

end TaintFlow.Template.Percent
