import TaintFlow.Mishap
import TaintFlow.Text.CodePoints

/-!
# Places in a YAML text

A cursor is what is left of a text, together with how far it is from the start
and in which line and column it stands.  Past the end a cursor sees the
character zero, which no YAML text may hold, so that one test covers a class of
characters and the end of the text.
-/

namespace TaintFlow.Yaml

/-- Why a text yields no data: it is not well formed, or a scalar in it cannot be converted. -/
inductive Refusal where
  | malformed
  | mishap (m : Mishap)
  deriving DecidableEq

/-- What is seen past the end of a text. -/
def finish : Char := '\x00'

/-- May the character stand in a YAML text? -/
def isAllowed (c : Char) : Bool :=
  let n := c.toNat
  n == 0x9 || n == 0xA || n == 0xD || (0x20 ≤ n && n ≤ 0x7E) || n == 0x85 ||
    (0xA0 ≤ n && n ≤ 0xD7FF) || (0xE000 ≤ n && n ≤ 0xFFFD) ||
    (0x10000 ≤ n && !Text.isHalf c)

/-- Does the character end a line? -/
def isBreak (c : Char) : Bool :=
  c == '\n' || c == '\r' || c == '\u0085' || c == '\u2028' || c == '\u2029'

/-- Does a line, or the text, end here? -/
def isLineEnd (c : Char) : Bool := c == finish || isBreak c

/-- Is this a space, or does the line end here? -/
def isGap (c : Char) : Bool := c == ' ' || isLineEnd c

/-- Is this a space or a tab, or does the line end here? -/
def isSpacing (c : Char) : Bool := c == '\t' || isGap c

/-- Is the character one of those in names: a letter or digit of ASCII, a hyphen or a low line? -/
def isNamePart (c : Char) : Bool := c.isAlphanum || c == '-' || c == '_'

/-- A place in a text. -/
structure Cursor where
  rest : List Char
  index : Nat := 0
  line : Nat := 0
  column : Nat := 0

namespace Cursor

/-- The character at the place. -/
def peek (c : Cursor) : Char := c.rest.headD finish

/-- The character some way on. -/
def peekAt (c : Cursor) (k : Nat) : Char := c.rest.getD k finish

/-- The place after the next character.  A carriage return ends its line unless a line feed
follows; a byte order mark takes no column. -/
def next (c : Cursor) : Cursor :=
  match c.rest with
  | [] => c
  | head :: rest =>
    if isBreak head && !(head == '\r' && rest.head? == some '\n') then
      ⟨rest, c.index + 1, c.line + 1, 0⟩
    else if head == '\uFEFF' then ⟨rest, c.index + 1, c.line, c.column⟩
    else ⟨rest, c.index + 1, c.line, c.column + 1⟩

/-- The place after some more characters. -/
def skip : Nat → Cursor → Cursor
  | 0, c => c
  | n + 1, c => skip n c.next

/-- Is the cursor at a line of three equal marks, which starts or ends a document? -/
def atMark (c : Cursor) : Bool :=
  let three := c.rest.take 3
  (three == "---".toList || three == "...".toList) && isSpacing (c.peekAt 3)

end Cursor

/-- Readers move a cursor on, or refuse the text. -/
abbrev Reader := StateT Cursor (Except Refusal)

namespace Reader

/-- The text is not well formed. -/
def malformed {α : Type} : Reader α := throw .malformed

/-- The character at the cursor. -/
def peek : Reader Char := return (← get).peek

/-- Move on by some characters. -/
def skip (n : Nat) : Reader Unit := modify (Cursor.skip n)

/-- Take the characters of a class. -/
def takeWhile (p : Char → Bool) : Reader (List Char) := do
  let taken := (← get).rest.takeWhile p
  skip taken.length
  return taken

/-- Pass over spaces. -/
def spaces : Reader Unit := discard (takeWhile (· == ' '))

/-- Refuse a text that does not go on with a character of a class. -/
def expect (p : Char → Bool) : Reader Unit := do
  unless p (← peek) do malformed

/-- Take a line break, if there is one: every break but the two separators of Unicode
reads as a line feed. -/
def lineBreak : Reader (List Char) := do
  let c ← get
  let head := c.peek
  if head == '\r' && c.peekAt 1 == '\n' then
    skip 2
    return ['\n']
  else if head == '\r' || head == '\n' || head == '\u0085' then
    skip 1
    return ['\n']
  else if head == '\u2028' || head == '\u2029' then
    skip 1
    return [head]
  else return []

/-- Pass over a comment, if there is one. -/
def comment : Reader Unit := do
  if (← peek) == '#' then discard (takeWhile fun c => !isLineEnd c)

/-- Pass over the rest of a line that may hold only spaces and a comment. -/
def restOfLine : Reader Unit := do
  spaces
  comment
  expect isLineEnd
  discard lineBreak

end Reader

end TaintFlow.Yaml
