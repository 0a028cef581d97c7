import TaintFlow.Number.Reading
import TaintFlow.Text.Utf8

/-!
# What can be wrong with a template

Every way in which filling a template can fail, and the text of each.
-/

namespace TaintFlow.Template

/-- Why a template cannot be filled. -/
inductive Fault where
  | loneOpening
  | loneClosing
  | openingInName
  | noConversion
  | noColonAfterConversion
  | unclosedSpec
  | unclosedField
  | unclosedIndex
  | afterBracket
  | emptyAttribute
  | tooManyDigits
  | manualThenAutomatic
  | automaticThenManual
  | tooDeep
  | unknownConversion (mark : Char)
  | noPosition (index : Nat)
  | noName (shown : String)
  | noKey (shown : String)
  | noMember (kind : String)
  | badIndexType (kind : String)
  | notIndexed (kind : String)
  | noIndexOn (kind : String)
  | notGeneric (shown : String)
  | noAttribute (owner field : String)
  | notFormatted (kind : String)
  | bothSeparators
  | noPrecision
  | precisionTooBig
  | badSpec (spec kind : String)
  | badSeparator (separator mark : Char)
  | unknownCode (mark : Char) (kind : String)
  | spaceInText
  | signInText
  | zeroSignInText
  | alternateInText
  | afterSignInText
  | precisionInWhole
  | zeroSignInWhole
  | signInCharacter
  | alternateInCharacter
  | noCharacter
  | noMachineInt
  | noDouble
  | noRoom
  | numberTooLong
  | notEncoded (text : List Char)

/-- A character in a message: itself if it is plain ASCII, else its code. -/
def charText (c : Char) (last : Nat) : String :=
  let n := Text.codeOf c
  if 32 < n ∧ n < last then String.singleton c
  else "\\x" ++ String.ofList (Nat.toDigits 16 n)

/-- The members of a sequence, as messages call them. -/
def memberWord : String → String
  | "str" => "string index out of range"
  | "bytes" => "index out of range"
  | kind => kind ++ " index out of range"

/-- What is wrong with an index that is a text. -/
def indexText : String → String
  | "str" => "string indices must be integers, not 'str'"
  | "bytes" => "byte indices must be integers or slices, not str"
  | kind => kind ++ " indices must be integers or slices, not str"

/-- The mishap that a fault is reported as. -/
def Fault.mishap : Fault → Mishap
  | loneOpening => .badValue "Single '\x7b' encountered in format string"
  | loneClosing => .badValue "Single '\x7d' encountered in format string"
  | openingInName => .badValue "unexpected '\x7b' in field name"
  | noConversion => .badValue "end of string while looking for conversion specifier"
  | noColonAfterConversion => .badValue "expected ':' after conversion specifier"
  | unclosedSpec => .badValue "unmatched '\x7b' in format spec"
  | unclosedField => .badValue "expected '\x7d' before end of string"
  | unclosedIndex => .badValue "Missing ']' in format string"
  | afterBracket => .badValue "Only '.' or '[' may follow ']' in format field specifier"
  | emptyAttribute => .badValue "Empty attribute in format string"
  | tooManyDigits => .badValue "Too many decimal digits in format string"
  | manualThenAutomatic =>
    .badValue "cannot switch from manual field specification to automatic field numbering"
  | automaticThenManual =>
    .badValue "cannot switch from automatic field numbering to manual field specification"
  | tooDeep => .badValue "Max string recursion exceeded"
  | unknownConversion mark => .badValue ("Unknown conversion specifier " ++ charText mark 127)
  | noPosition index =>
    .noIndex s!"Replacement index {index} out of range for positional args tuple"
  | noName shown => .noKey shown
  | noKey shown => .noKey shown
  | noMember kind => .noIndex (memberWord kind)
  | badIndexType kind => .badType (indexText kind)
  | notIndexed kind => .badType s!"'{kind}' object is not subscriptable"
  | noIndexOn kind => .badType s!"type '{kind}' is not subscriptable"
  | notGeneric shown => .badType s!"{shown} is not a generic class"
  | noAttribute owner field => .noAttribute s!"{owner} has no attribute '{field}'"
  | notFormatted kind => .badType s!"unsupported format string passed to {kind}.__format__"
  | bothSeparators => .badValue "Cannot specify both ',' and '_'."
  | noPrecision => .badValue "Format specifier missing precision"
  | precisionTooBig => .badValue "precision too big"
  | badSpec spec kind => .badValue s!"Invalid format specifier '{spec}' for object of type '{kind}'"
  | badSeparator separator mark =>
    .badValue s!"Cannot specify '{separator}' with '{charText mark 128}'."
  | unknownCode mark kind =>
    .badValue s!"Unknown format code '{charText mark 128}' for object of type '{kind}'"
  | spaceInText => .badValue "Space not allowed in string format specifier"
  | signInText => .badValue "Sign not allowed in string format specifier"
  | zeroSignInText =>
    .badValue "Negative zero coercion (z) not allowed in string format specifier"
  | alternateInText => .badValue "Alternate form (#) not allowed in string format specifier"
  | afterSignInText => .badValue "'=' alignment not allowed in string format specifier"
  | precisionInWhole => .badValue "Precision not allowed in integer format specifier"
  | zeroSignInWhole =>
    .badValue "Negative zero coercion (z) not allowed in integer format specifier"
  | signInCharacter => .badValue "Sign not allowed with integer format specifier 'c'"
  | alternateInCharacter =>
    .badValue "Alternate form (#) not allowed with integer format specifier 'c'"
  | noCharacter => .tooLarge "%c arg not in range(0x110000)"
  | noMachineInt => .tooLarge "Python int too large to convert to C long"
  | noDouble => .tooLarge "int too large to convert to float"
  | noRoom => .noMemory
  | numberTooLong => Number.unwritable
  | notEncoded text => Text.Utf8.unencoded text

end TaintFlow.Template
