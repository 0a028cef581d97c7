import TaintFlow.Yaml.Token
import TaintFlow.Number.Reading

/-!
# Scalars in a YAML text

A scalar is written plain, between quotes, or as a block of indented lines.  In
all of them a single line break inside the text is folded into a space, and
further breaks are kept; a literal block keeps every break.
-/

namespace TaintFlow.Yaml.Reader

open Number

/-! ## Blocks -/

/-- What becomes of the line breaks at the end of a block. -/
inductive Chomping where
  | clip | strip | keep
  deriving DecidableEq

/-- The chomping that a sign asks for. -/
def Chomping.ofSign? (c : Char) : Option Chomping :=
  if c == '+' then some .keep else if c == '-' then some .strip else none

/-- Read a chomping sign, if there is one. -/
def chompingSign : Reader (Option Chomping) := do
  match Chomping.ofSign? (← peek) with
  | some chomping =>
    skip 1
    return some chomping
  | none => return none

/-- Read an indentation digit, if there is one; zero is refused. -/
def indentationDigit : Reader (Option Nat) := do
  match digitValue? (← peek) with
  | some 0 => malformed
  | some n =>
    skip 1
    return some n
  | none => return none

/-- Read the header of a block: a chomping sign and an indentation digit in either order. -/
def blockHeader : Reader (Chomping × Option Nat) := do
  match ← chompingSign with
  | some chomping =>
    let digit ← indentationDigit
    expect isGap
    return (chomping, digit)
  | none =>
    let digit ← indentationDigit
    let chomping ← if digit.isSome then chompingSign else pure none
    expect isGap
    return (chomping.getD .clip, digit)

/-- Pass over spaces up to a column. -/
def indentTo (column : Nat) : Reader Unit := do
  let c ← get
  let spaces := (c.rest.takeWhile (· == ' ')).length
  skip (min spaces (column - c.column))

/-- Read the empty lines in front of a block whose indentation is not given: their breaks, and
the deepest column reached in them. -/
def leadingLines : Nat → Reader (List Char × Nat)
  | 0 => return ([], 0)
  | fuel + 1 => do
    spaces
    let column := (← get).column
    let head ← lineBreak
    if head.isEmpty then return ([], column)
    else
      let (breaks, deepest) ← leadingLines fuel
      return (head ++ breaks, max column deepest)

/-- Read the breaks of empty lines up to the next line that reaches a column. -/
def blockBreaks (column : Nat) : Nat → Reader (List Char)
  | 0 => return []
  | fuel + 1 => do
    indentTo column
    let head ← lineBreak
    if head.isEmpty then return []
    else return head ++ (← blockBreaks column fuel)

/-- Read the lines of a block: its text, the break after its last line, and the breaks of the
empty lines that follow. -/
def blockLines (folded : Bool) (column : Nat) (breaks : List Char) :
    Nat → Reader (List Char × List Char × List Char)
  | 0 => return ([], [], breaks)
  | fuel + 1 => do
    let c ← get
    if c.column == column && c.peek != finish then
      let startsDeep := c.peek == ' ' || c.peek == '\t'
      let line ← takeWhile fun c => !isLineEnd c
      let lineEnd ← lineBreak
      let after ← blockBreaks column (c.rest.length + 1)
      let d ← get
      if d.column == column && d.peek != finish then
        let nextDeep := d.peek == ' ' || d.peek == '\t'
        let joint :=
          if folded && lineEnd == ['\n'] && !startsDeep && !nextDeep then
            if after.isEmpty then [' '] else []
          else lineEnd
        let (text, last, trailing) ← blockLines folded column after fuel
        return (breaks ++ line ++ joint ++ text, last, trailing)
      else return (breaks ++ line, lineEnd, after)
    else return ([], [], breaks)

/-- Read a block scalar in a collection that is indented by `indent`. -/
def blockScalar (folded : Bool) (indent : Int) : Reader String := do
  skip 1
  let (chomping, digit) ← blockHeader
  restOfLine
  let least : Nat := max 1 (indent + 1).toNat
  let fuel := (← get).rest.length + 1
  let (breaks, column) ← match digit with
    | some n => do
      let column := least + n - 1
      pure (← blockBreaks column fuel, column)
    | none => do
      let (breaks, deepest) ← leadingLines fuel
      pure (breaks, max least deepest)
  let (text, last, trailing) ← blockLines folded column breaks fuel
  return String.ofList <| match chomping with
    | .strip => text
    | .clip => text ++ last
    | .keep => text ++ last ++ trailing

/-! ## Quotes -/

/-- The character of an escape of one letter. -/
def escaped? (c : Char) : Option Char :=
  match c with
  | '0' => some '\x00'
  | 'a' => some '\x07'
  | 'b' => some '\x08'
  | 't' => some '\t'
  | '\t' => some '\t'
  | 'n' => some '\n'
  | 'v' => some '\x0b'
  | 'f' => some '\x0c'
  | 'r' => some '\r'
  | 'e' => some '\x1b'
  | ' ' => some ' '
  | '"' => some '"'
  | '\\' => some '\\'
  | '/' => some '/'
  | 'N' => some '\u0085'
  | '_' => some '\u00a0'
  | 'L' => some '\u2028'
  | 'P' => some '\u2029'
  | _ => none

/-- The number of digits that an escape by code point has. -/
def escapeLength? (c : Char) : Option Nat :=
  match c with
  | 'x' => some 2
  | 'u' => some 4
  | 'U' => some 8
  | _ => none

/-- The mishap of a number that is past the last code point. -/
def noCharacter (code : Nat) : Mishap :=
  if code < 0x80000000 then .badValue "chr() arg not in range(0x110000)"
  else .tooLarge "Python int too large to convert to C int"

/-- Read the digits of an escape.  A code point past the last one is a mishap of its own. -/
def codePoint (length : Nat) : Reader Nat := do
  let digits := (← get).rest.take length
  if digits.length < length then malformed
  else
    match ofDigitRow? 16 digits with
    | none => malformed
    | some code =>
      if 0x10FFFF < code then throw (.mishap (noCharacter code))
      else
        skip length
        return code

/-- Read the breaks of the empty lines inside quotes. -/
def quotedBreaks : Nat → Reader (List Char)
  | 0 => return []
  | fuel + 1 => do
    if (← get).atMark then malformed
    else
      discard (takeWhile fun c => c == ' ' || c == '\t')
      let head ← lineBreak
      if head.isEmpty then return []
      else return head ++ (← quotedBreaks fuel)

/-- A line break and the empty lines after it, folded. -/
def foldBreaks (first : List Char) (more : List Char) : List Char :=
  if first != ['\n'] then first ++ more
  else if more.isEmpty then [' ']
  else more

/-- Read the text that follows a backslash between double quotes. -/
def escape : Reader (List Char) := do
  let head ← peek
  match escaped? head, escapeLength? head with
  | some c, _ =>
    skip 1
    return [c]
  | none, some length =>
    skip 1
    return [Text.charOf (← codePoint length)]
  | none, none =>
    if isBreak head then
      discard lineBreak
      quotedBreaks ((← get).rest.length + 1)
    else malformed

/-- Read the text between quotes, and the closing quote. -/
def quotedText (double : Bool) : Nat → Reader (List Char)
  | 0 => malformed
  | fuel + 1 => do
    let c ← get
    let head := c.peek
    if head == finish then malformed
    else if head == (if double then '"' else '\'') then
      if !double && c.peekAt 1 == '\'' then
        skip 2
        return '\'' :: (← quotedText double fuel)
      else
        skip 1
        return []
    else if double && head == '\\' then
      skip 1
      let text ← escape
      return text ++ (← quotedText double fuel)
    else if head == ' ' || head == '\t' || isBreak head then
      let blanks ← takeWhile fun c => c == ' ' || c == '\t'
      let first ← lineBreak
      let text ← if first.isEmpty then pure blanks
        else do pure (foldBreaks first (← quotedBreaks (c.rest.length + 1)))
      return text ++ (← quotedText double fuel)
    else
      skip 1
      return head :: (← quotedText double fuel)

/-- Read a quoted scalar. -/
def quotedScalar (double : Bool) : Reader Token := do
  skip 1
  let row ← quotedText double ((← get).rest.length + 1)
  return .scalar (String.ofList row) false

/-! ## Plain text -/

/-- Does a plain scalar stop at a character, the next one being `after`?  Inside brackets it
stops at more of them. -/
def stopsPlain (inFlow : Bool) (c after : Char) : Bool :=
  isSpacing c ||
    (c == ':' && (isSpacing after || (inFlow && ",[]\x7b\x7d".contains after))) ||
    (inFlow && ",?[]\x7b\x7d".contains c)

/-- The plain characters at the front of a text. -/
def plainRun (inFlow : Bool) : List Char → List Char
  | [] => []
  | c :: rest => if stopsPlain inFlow c (rest.headD finish) then [] else c :: plainRun inFlow rest

/-- Read empty lines inside a plain scalar; `none` at a line that starts or ends a document. -/
def plainBreaks : Nat → Reader (Option (List Char))
  | 0 => return some []
  | fuel + 1 => do
    if (← get).atMark then return none
    else
      spaces
      let head ← lineBreak
      if head.isEmpty then return some []
      else return (← plainBreaks fuel).map (head ++ ·)

/-- Read the blanks inside a plain scalar: what stands for them, and whether a line ended. -/
def plainBlanks : Reader (List Char × Bool) := do
  let blanks ← takeWhile (· == ' ')
  let first ← lineBreak
  if first.isEmpty then return (blanks, false)
  else
    let more ← plainBreaks ((← get).rest.length + 1)
    return ((more.map (foldBreaks first)).getD [], true)

/-- Read the words of a plain scalar: its text, and whether a line ended after it. -/
def plainWords (inFlow : Bool) (indent : Int) (blanks : List Char) (ended : Bool) :
    Nat → Reader (List Char × Bool)
  | 0 => return ([], ended)
  | fuel + 1 => do
    let run := plainRun inFlow (← get).rest
    if (← peek) == '#' || run.isEmpty then return ([], ended)
    else
      skip run.length
      let (after, lineEnded) ← plainBlanks
      let c ← get
      if after.isEmpty || c.peek == '#' || (!inFlow && (c.column : Int) < indent) then
        return (blanks ++ run, lineEnded)
      else
        let (text, ended) ← plainWords inFlow indent after lineEnded fuel
        return (blanks ++ run ++ text, ended)

/-- Read a plain scalar in a collection that is indented by `indent`: its text, and whether a
line ended after it. -/
def plainScalar (inFlow : Bool) (indent : Int) : Reader (String × Bool) := do
  let fuel := (← get).rest.length + 1
  let (text, ended) ← plainWords inFlow (indent + 1) [] false fuel
  return (String.ofList text, ended)

end TaintFlow.Yaml.Reader
