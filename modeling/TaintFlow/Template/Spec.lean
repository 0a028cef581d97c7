import TaintFlow.Template.Fault
import TaintFlow.Number.Reading
import TaintFlow.Number.Notation
import TaintFlow.Text.Blank

/-!
# Format specifications

The short text after a colon that says how a value is laid out: a fill and an
alignment, a sign, a width, separators between groups of digits, a precision
and a one-letter code.  A specification is read first and then applied to a
text, a whole number or a double.
-/

namespace TaintFlow.Template

open Number

/-- Where a value stands in its field. -/
inductive Alignment where
  | left | right | center | afterSign
  deriving DecidableEq

/-- What stands before a number that is not negative. -/
inductive SignRule where
  | minus | plus | space
  deriving DecidableEq

/-- What stands between groups of digits. -/
inductive Grouping where
  | none | commas | underscores
  deriving DecidableEq

/-- A format specification; `code` is the one-letter code, if there is one. -/
structure Spec where
  fill : Char
  alignment : Alignment
  sign : Option SignRule
  unsignedZero : Bool
  alternate : Bool
  width : Option Nat
  grouping : Grouping
  precision : Option Nat
  code : Option Char

/-- The alignment of a mark. -/
def Alignment.ofMark? : Char → Option Alignment
  | '<' => some .left
  | '>' => some .right
  | '^' => some .center
  | '=' => some .afterSign
  | _ => none

/-- The sign rule of a mark. -/
def SignRule.ofMark? : Char → Option SignRule
  | '-' => some .minus
  | '+' => some .plus
  | ' ' => some .space
  | _ => none

/-- The largest number that a template may hold. -/
def numberLimit : Nat := 0x7fffffffffffffff

/-- The digits at the front of a text, of any script, and the rest. -/
def splitNumber (text : List Char) : List Char × List Char :=
  let digits := text.takeWhile fun c => isDigit (Text.plainDigit c)
  (digits.map Text.plainDigit, text.drop digits.length)

/-- Read a number at the front of a text; no digits are no number. -/
def readNumber (text : List Char) : Except Fault (Option Nat × List Char) :=
  let (digits, rest) := splitNumber text
  match ofDigitRow? 10 digits with
  | none => .ok (none, rest)
  | some n => if numberLimit < n then .error .tooManyDigits else .ok (some n, rest)

/-- Take a mark from the front of a text, if it is there. -/
def takeMark (mark : Char) : List Char → Bool × List Char
  | [] => (false, [])
  | c :: rest => if c = mark then (true, rest) else (false, c :: rest)

/-- The fill and the alignment at the front of a text. -/
def readAlignment (text : List Char) : Option Char × Option Alignment × List Char :=
  match text with
  | c :: d :: rest =>
    match Alignment.ofMark? d with
    | some alignment => (some c, some alignment, rest)
    | none =>
      match Alignment.ofMark? c with
      | some alignment => (none, some alignment, d :: rest)
      | none => (none, none, text)
  | [c] =>
    match Alignment.ofMark? c with
    | some alignment => (none, some alignment, [])
    | none => (none, none, text)
  | [] => (none, none, [])

/-- The separators at the front of a text. -/
def readGrouping (text : List Char) : Except Fault (Grouping × List Char) :=
  match text with
  | ',' :: '_' :: _ => .error .bothSeparators
  | ',' :: rest => .ok (.commas, rest)
  | '_' :: ',' :: _ => .error .bothSeparators
  | '_' :: rest => .ok (.underscores, rest)
  | _ => .ok (.none, text)

/-- The codes that write a number in groups. -/
def groupedCodes : List Char := ['d', 'e', 'f', 'g', 'E', 'G', '%', 'F']

/-- The codes that write a number in a base other than ten. -/
def baseCodes : List Char := ['b', 'o', 'x', 'X']

/-- May digits be grouped this way under a code? -/
def checkGrouping (grouping : Grouping) (code : Option Char) : Except Fault Unit :=
  match grouping, code with
  | .none, _ => .ok ()
  | _, none => .ok ()
  | .commas, some c => if groupedCodes.contains c then .ok () else .error (.badSeparator ',' c)
  | .underscores, some c =>
    if groupedCodes.contains c || baseCodes.contains c then .ok ()
    else .error (.badSeparator '_' c)

/-- Read a specification for a value of a kind.  Texts stand left by default and have a code
of their own; numbers stand right, and a zero before the width moves the filling between the
sign and the digits. -/
def Spec.read (kind : String) (numeric : Bool) (usual : Option Char) (text : List Char) :
    Except Fault Spec := do
  let (fill, alignment, rest) := readAlignment text
  let (sign, rest) := match rest with
    | c :: tail =>
      match SignRule.ofMark? c with
      | some sign => (some sign, tail)
      | none => (none, rest)
    | [] => (none, [])
  let (unsignedZero, rest) := takeMark 'z' rest
  let (alternate, rest) := takeMark '#' rest
  let (zero, rest) := if fill.isNone then takeMark '0' rest else (false, rest)
  let (width, rest) ← readNumber rest
  let (grouping, rest) ← readGrouping rest
  let (pointed, rest) := takeMark '.' rest
  let (precision, rest) ← if pointed then readNumber rest else pure (none, rest)
  if pointed && precision.isNone then throw .noPrecision
  let code ← match rest with
    | [] => pure usual
    | [c] => pure (some c)
    | _ => throw (.badSpec (String.ofList text) kind)
  checkGrouping grouping code
  let usualAlignment : Alignment :=
    if !numeric then .left else if zero then .afterSign else .right
  return {
    fill := fill.getD (if zero then '0' else ' ')
    alignment := alignment.getD usualAlignment
    sign, unsignedZero, alternate, width, grouping, precision, code }

/-- The most characters that there is room for. -/
def roomLimit : Nat := 100000000

/-- Is there room for the field of a specification? -/
def Spec.checkRoom (spec : Spec) : Except Fault Unit :=
  if spec.width.any (roomLimit < ·) then .error .noRoom else .ok ()

/-- A row of one character. -/
def row (c : Char) (count : Int) : List Char := List.replicate count.toNat c

/-- Lay a text out in the field of a specification. -/
def Spec.layText (spec : Spec) (text : List Char) : Except Fault (List Char) := do
  match spec.sign with
  | some .space => throw .spaceInText
  | some _ => throw .signInText
  | none => pure ()
  if spec.unsignedZero then throw .zeroSignInText
  if spec.alternate then throw .alternateInText
  if spec.alignment = .afterSign then throw .afterSignInText
  spec.checkRoom
  let shown := match spec.precision with
    | some count => text.take count
    | none => text
  let gap : Int := (spec.width.getD 0 : Int) - shown.length
  return match spec.alignment with
    | .right => row spec.fill gap ++ shown
    | .center => row spec.fill (gap.toNat / 2 : Nat) ++ shown ++
        row spec.fill (gap.toNat - gap.toNat / 2 : Nat)
    | _ => shown ++ row spec.fill gap

/-- Put separators between groups of `size` digits, given from the last digit on, and fill up
with zeros until at least `least` characters stand. -/
def groupDigits (separator : Char) (size : Nat) : Nat → List Char → Int → List Char
  | 0, _, _ => []
  | fuel + 1, digits, least =>
    let length : Int := min size (max (max (digits.length : Int) least) 1)
    let taken := digits.take length.toNat
    let group := taken ++ row '0' (length - taken.length)
    let remaining := digits.drop length.toNat
    let least := least - length
    if remaining.isEmpty ∧ least ≤ 0 then group
    else group ++ separator :: groupDigits separator size fuel remaining (least - 1)

/-- The parts of a written number: is it negative, what stands before its digits, the digits
that are grouped, and all that follows. -/
structure NumberParts where
  negative : Bool
  lead : List Char
  digits : List Char
  tail : List Char

/-- The separator and the size of the groups, if digits are grouped. -/
def Spec.separator? (spec : Spec) : Option (Char × Nat) :=
  match spec.grouping with
  | .none => none
  | .commas => some (',', 3)
  | .underscores =>
    if spec.code.any baseCodes.contains then some ('_', 4) else some ('_', 3)

/-- Lay a number out in the field of a specification. -/
def Spec.layNumber (spec : Spec) (parts : NumberParts) : List Char :=
  let sign := if parts.negative then ['-'] else
    match spec.sign with
    | some .plus => ['+']
    | some .space => [' ']
    | _ => []
  let fixed : Int := sign.length + parts.lead.length + parts.tail.length
  let width : Int := match spec.width with
    | some n => n
    | none => -1
  let least := if spec.fill = '0' ∧ spec.alignment = .afterSign then width - fixed else 0
  let digits :=
    if parts.digits.isEmpty then []
    else
      match spec.separator? with
      | none => row '0' (least - parts.digits.length) ++ parts.digits
      | some (separator, size) =>
        let fuel := parts.digits.length + least.toNat + 1
        (groupDigits separator size fuel parts.digits.reverse least).reverse
  let gap := width - (fixed + digits.length)
  let start := sign ++ parts.lead
  let body := digits ++ parts.tail
  match spec.alignment with
  | .left => start ++ body ++ row spec.fill gap
  | .right => row spec.fill gap ++ start ++ body
  | .center => row spec.fill (gap.toNat / 2 : Nat) ++ start ++ body ++
      row spec.fill (gap.toNat - gap.toNat / 2 : Nat)
  | .afterSign => start ++ row spec.fill gap ++ body

/-- The codes that write a number as a double. -/
def doubleCodes : List Char := ['e', 'E', 'f', 'F', 'g', 'G', '%']

/-- The digits and the mark of a base. -/
def baseOf : Char → Nat × List Char
  | 'b' => (2, ['0', 'b'])
  | 'o' => (8, ['0', 'o'])
  | 'x' => (16, ['0', 'x'])
  | 'X' => (16, ['0', 'X'])
  | _ => (10, [])

/-- Lay a whole number out as a character. -/
def Spec.layCharacter (spec : Spec) (n : Int) : Except Fault (List Char) := do
  if spec.sign.isSome then throw .signInCharacter
  if spec.alternate then throw .alternateInCharacter
  if n < -0x8000000000000000 ∨ 0x8000000000000000 ≤ n then throw .noMachineInt
  if n < 0 ∨ 0x110000 ≤ n then throw .noCharacter
  spec.checkRoom
  return spec.layNumber ⟨false, [], [], [Text.charOf n.toNat]⟩

/-- Lay a whole number out under a whole-number code. -/
def Spec.layWhole (spec : Spec) (code : Char) (n : Int) : Except Fault (List Char) := do
  if spec.precision.isSome then throw .precisionInWhole
  if spec.unsignedZero then throw .zeroSignInWhole
  if code = 'c' then spec.layCharacter n
  else
    let (base, mark) := baseOf code
    if base = 10 ∧ !isWritable n then throw .numberTooLong
    spec.checkRoom
    let digits := Nat.toDigits base n.natAbs
    let digits := if code = 'X' then digits.map Char.toUpper else digits
    return spec.layNumber ⟨n < 0, if spec.alternate then mark else [], digits, []⟩

/-- The style in which a code writes doubles. -/
def Spec.floatStyle (spec : Spec) : FloatStyle :=
  let places := spec.precision.getD 6
  let style : FloatStyle := match spec.code, spec.precision with
    | none, none => { form := .shortest }
    | none, some count => { form := .general count }
    | some c, _ =>
      if c = 'e' ∨ c = 'E' then { form := .scientific places, keepZero := false }
      else if c = 'f' ∨ c = 'F' ∨ c = '%' then { form := .fixed places, keepZero := false }
      else { form := .general places, keepZero := false }
  let capital := spec.code.any Char.isUpper
  { style with
    keepPoint := spec.alternate
    mark := if capital then 'E' else 'e'
    infinityText := if capital then "INF" else "inf"
    nanText := if capital then "NAN" else "nan" }

/-- Does a double come out as a row of zeros? -/
def roundsToZero (style : FloatStyle) : Binary64 → Bool
  | .finite x =>
    let shown := (style.form.digitsOf x).digits
    shown.isEmpty || shown == ['0']
  | _ => false

/-- The largest precision of a double. -/
def precisionLimit : Nat := 0x7fffffff

/-- Is there room for the digits of a double?  Zeros at the end take room only where they are
written. -/
def checkDigits (style : FloatStyle) (x : Binary64) : Except Fault Unit :=
  let asked := match style.form with
    | .shortest => 0
    | .fixed places | .scientific places => places
    | .general count => if style.keepPoint then count else 0
  if x.isFinite ∧ roomLimit < asked then .error .noRoom else .ok ()

/-- Lay a double out. -/
def Spec.layDouble (spec : Spec) (x : Binary64) : Except Fault (List Char) := do
  if spec.precision.any (precisionLimit < ·) then throw .precisionTooBig
  let percent := spec.code == some '%'
  let x := if percent then x.mulNat 100 else x
  let style := spec.floatStyle
  checkDigits style x
  let text := style.unsigned x ++ (if percent then ['%'] else [])
  let negative := x.isNegative && !(spec.unsignedZero && roundsToZero style x)
  let (digits, tail) := splitDigits text
  spec.checkRoom
  return spec.layNumber ⟨negative, [], digits, tail⟩

end TaintFlow.Template
