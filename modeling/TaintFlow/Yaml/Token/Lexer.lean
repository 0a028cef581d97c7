import TaintFlow.Yaml.Token.Scalar
import TaintFlow.Yaml.Token.Mark

/-!
# From a text to tokens

Outside brackets the indentation of a text opens and closes collections.  A
mapping's key is known only by the colon behind it: until then it is a candidate,
of which there is at most one for each depth of brackets, and the colon puts the
token for the key in front of it after the fact.
-/

namespace TaintFlow.Yaml

/-- A node that turns out to be a key if a colon follows it in its line. -/
structure Candidate where
  depth : Nat
  /-- The number of tokens in front of the node. -/
  position : Nat
  required : Bool
  index : Nat
  line : Nat
  column : Nat

/-- The state of reading tokens; `tokens` holds the newest first. -/
structure Lexer where
  cursor : Cursor
  depth : Nat := 0
  indent : Int := -1
  indents : List Int := []
  mayStartKey : Bool := true
  candidates : List Candidate := []
  tokens : List Token := []

namespace Lexer

/-- The outcome of a step. -/
abbrev Step := Except Refusal Lexer

/-- Is the place inside brackets? -/
def inFlow (s : Lexer) : Bool := s.depth != 0

/-- Add a token. -/
def push (t : Token) (s : Lexer) : Lexer := { s with tokens := t :: s.tokens }

/-- Move the cursor on. -/
def advance (n : Nat) (s : Lexer) : Lexer := { s with cursor := s.cursor.skip n }

/-- May a key start at the next token? -/
def keysAllowed (allowed : Bool) (s : Lexer) : Lexer := { s with mayStartKey := allowed }

/-- Run a reader at the cursor. -/
def reading {α : Type} (reader : Reader α) (s : Lexer) : Except Refusal (α × Lexer) := do
  let (a, cursor) ← reader.run s.cursor
  return (a, { s with cursor })

/-! ## Candidates for keys -/

/-- Has the cursor gone too far for the candidate to be a key? -/
def isStale (s : Lexer) (k : Candidate) : Bool :=
  k.line != s.cursor.line || k.index + 1024 < s.cursor.index

/-- Give up the candidates that can no longer be keys; one that has to be a key is an error. -/
def dropStale (s : Lexer) : Step :=
  if s.candidates.any fun k => s.isStale k && k.required then .error .malformed
  else .ok { s with candidates := s.candidates.filter fun k => !s.isStale k }

/-- Give up the candidate at the present depth. -/
def dropCandidate (s : Lexer) : Step :=
  if s.candidates.any fun k => k.depth == s.depth && k.required then .error .malformed
  else .ok { s with candidates := s.candidates.filter fun k => k.depth != s.depth }

/-- Make the next token a candidate, if a key may start here. -/
def addCandidate (s : Lexer) : Step :=
  if s.mayStartKey then do
    let s ← s.dropCandidate
    let c := s.cursor
    let candidate : Candidate :=
      ⟨s.depth, s.tokens.length, !s.inFlow && s.indent == c.column, c.index, c.line, c.column⟩
    return { s with candidates := candidate :: s.candidates }
  else .ok s

/-- Put tokens, the last one first, in front of all but the first `position` tokens. -/
def insertAt (position : Nat) (tokens : List Token) (s : Lexer) : Lexer :=
  let newer := s.tokens.length - position
  { s with tokens := s.tokens.take newer ++ tokens ++ s.tokens.drop newer }

/-! ## Indentation -/

/-- Close the collections that are indented deeper than a column. -/
def closeTo (column : Int) (s : Lexer) : Lexer :=
  if s.inFlow then s
  else
    let closed := ((s.indent :: s.indents).takeWhile (column < ·)).length
    match (s.indent :: s.indents).drop closed with
    | indent :: indents =>
      { s with indent, indents, tokens := List.replicate closed .blockEnd ++ s.tokens }
    | [] => s

/-- Open a collection at a column, unless the present one is at least as deep. -/
def openAt (column : Nat) (s : Lexer) : Option Lexer :=
  if s.indent < column then some { s with indents := s.indent :: s.indents, indent := column }
  else none

/-- Open a collection at the cursor with its token, if it is a new one. -/
def openHere (t : Token) (s : Lexer) : Lexer :=
  match s.openAt s.cursor.column with
  | some s => s.push t
  | none => s

/-! ## Tokens -/

/-- A sign that only brackets or the start of a line make room for. -/
def startsEntry (t : Token) (s : Lexer) : Step :=
  if s.inFlow then .ok s
  else if s.mayStartKey then .ok (s.openHere t)
  else .error .malformed

/-- The end of the text. -/
def atEnd (s : Lexer) : Step := do
  let s ← (s.closeTo (-1)).dropCandidate
  return s.push .textEnd

/-- A directive. -/
def atDirective (s : Lexer) : Step := do
  let s ← (s.closeTo (-1)).dropCandidate
  let (found, s) ← (s.keysAllowed false).reading Reader.directive
  return s.push (.directive found)

/-- The mark at the start or the end of a document. -/
def atDocumentMark (t : Token) (s : Lexer) : Step := do
  let s ← (s.closeTo (-1)).dropCandidate
  return ((s.keysAllowed false).advance 3).push t

/-- An opening bracket. -/
def atOpening (t : Token) (s : Lexer) : Step := do
  let s ← s.addCandidate
  return (({ s with depth := s.depth + 1 }.keysAllowed true).advance 1).push t

/-- A closing bracket. -/
def atClosing (t : Token) (s : Lexer) : Step := do
  let s ← s.dropCandidate
  if s.depth == 0 then .error .malformed
  else return (({ s with depth := s.depth - 1 }.keysAllowed false).advance 1).push t

/-- A comma between brackets. -/
def atComma (s : Lexer) : Step := do
  let s ← (s.keysAllowed true).dropCandidate
  return (s.advance 1).push .flowEntry

/-- A hyphen in front of an entry. -/
def atHyphen (s : Lexer) : Step := do
  let s ← s.startsEntry .blockSequence
  let s ← (s.keysAllowed true).dropCandidate
  return (s.advance 1).push .blockEntry

/-- A question mark in front of a key. -/
def atQuestion (s : Lexer) : Step := do
  let s ← s.startsEntry .blockMapping
  let s ← (s.keysAllowed !s.inFlow).dropCandidate
  return (s.advance 1).push .key

/-- A colon: what stands in front of it is a key. -/
def atColon (s : Lexer) : Step := do
  match s.candidates.find? (·.depth == s.depth) with
  | some k =>
    let s := { s with candidates := s.candidates.filter (·.depth != s.depth) }
    let opened := if s.inFlow then none else s.openAt k.column
    let s := match opened with
      | some s => s.insertAt k.position [.key, .blockMapping]
      | none => s.insertAt k.position [.key]
    return ((s.keysAllowed false).advance 1).push .value
  | none =>
    let s ← s.startsEntry .blockMapping
    let s ← (s.keysAllowed !s.inFlow).dropCandidate
    return (s.advance 1).push .value

/-- A node that starts with a sign of its own and may be a key. -/
def atNode (reader : Reader Token) (s : Lexer) : Step := do
  let s ← s.addCandidate
  let (t, s) ← (s.keysAllowed false).reading reader
  return s.push t

/-- A block scalar. -/
def atBlockScalar (folded : Bool) (s : Lexer) : Step := do
  let s ← (s.keysAllowed true).dropCandidate
  let (text, s) ← s.reading (Reader.blockScalar folded s.indent)
  return s.push (.scalar text false)

/-- A plain scalar. -/
def atPlain (s : Lexer) : Step := do
  let s ← s.addCandidate
  let ((text, ended), s) ← s.reading (Reader.plainScalar s.inFlow s.indent)
  return (s.keysAllowed ended).push (.scalar text true)

/-- May a plain scalar start with a character, the next one being `after`? -/
def startsPlain (inFlow : Bool) (c after : Char) : Bool :=
  if c == '-' || (!inFlow && (c == '?' || c == ':')) then !isSpacing after
  else !(isSpacing c || "-?:,[]\x7b\x7d#&*!|>\x27\"%@\x60".contains c)

/-- Pass over blanks, comments and line breaks; outside brackets a new line makes room for
a key. -/
def toNextToken : Nat → Lexer → Step
  | 0, s => .ok s
  | fuel + 1, s => do
    let ((), s) ← s.reading (do Reader.spaces; Reader.comment)
    let (lineEnd, s) ← s.reading Reader.lineBreak
    if lineEnd.isEmpty then return s
    else toNextToken fuel (if s.inFlow then s else s.keysAllowed true)

/-- Read the next token. -/
def next (s : Lexer) : Step := do
  let s := if s.cursor.index == 0 && s.cursor.peek == '\uFEFF' then s.advance 1 else s
  let s ← toNextToken (s.cursor.rest.length + 1) s
  let s ← s.dropStale
  let s := s.closeTo s.cursor.column
  let c := s.cursor
  let head := c.peek
  let after := c.peekAt 1
  let atStart := c.column == 0
  if head == finish then s.atEnd
  else if head == '%' && atStart then s.atDirective
  else if head == '-' && atStart && c.atMark then s.atDocumentMark .documentStart
  else if head == '.' && atStart && c.atMark then s.atDocumentMark .documentEnd
  else if head == '[' then s.atOpening .flowSequence
  else if head == '\x7b' then s.atOpening .flowMapping
  else if head == ']' then s.atClosing .flowSequenceEnd
  else if head == '\x7d' then s.atClosing .flowMappingEnd
  else if head == ',' then s.atComma
  else if head == '-' && isSpacing after then s.atHyphen
  else if head == '?' && (s.inFlow || isSpacing after) then s.atQuestion
  else if head == ':' && (s.inFlow || isSpacing after) then s.atColon
  else if head == '*' then s.atNode (.alias <$> Reader.anchorName)
  else if head == '&' then s.atNode (.anchor <$> Reader.anchorName)
  else if head == '!' then s.atNode ((fun (h, t) => .tag h t) <$> Reader.tag)
  else if head == '|' && !s.inFlow then s.atBlockScalar false
  else if head == '>' && !s.inFlow then s.atBlockScalar true
  else if head == '\'' then s.atNode (Reader.quotedScalar false)
  else if head == '"' then s.atNode (Reader.quotedScalar true)
  else if startsPlain s.inFlow head after then s.atPlain
  else .error .malformed

/-- Read tokens to the end of the text, or as far as it can be read. -/
def run : Nat → Lexer → List Token
  | 0, s => s.tokens.reverse
  | fuel + 1, s =>
    match s.next with
    | .error why => (s.push (.broken why)).tokens.reverse
    | .ok s => if s.tokens.head? == some .textEnd then s.tokens.reverse else run fuel s

end Lexer

/-- The tokens of a text. -/
def tokens (text : List Char) : List Token :=
  if text.all isAllowed then Lexer.run (text.length + 2) ⟨⟨text, 0, 0, 0⟩, 0, -1, [], true, [], []⟩
  else [.broken .malformed]

end TaintFlow.Yaml
