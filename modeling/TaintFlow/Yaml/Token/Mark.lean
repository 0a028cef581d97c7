import TaintFlow.Yaml.Token
import TaintFlow.Number.Reading
import TaintFlow.Text.Utf8

/-!
# Anchors, tags and directives

An anchor names a node and an alias refers back to it.  A tag gives the type of
a node, either in full or through a handle that a directive may lay down.
-/

namespace TaintFlow.Yaml.Reader

open Number

/-- Read a name. -/
def name : Reader (List Char) := do
  let text ← takeWhile isNamePart
  if text.isEmpty then malformed else return text

/-- Read the name of an anchor or an alias, behind its sign. -/
def anchorName : Reader String := do
  skip 1
  let text ← name
  expect fun c => isSpacing c || "?:,]\x7d%@\x60".contains c
  return String.ofList text

/-- May the character stand in a tag? -/
def isTagPart (c : Char) : Bool :=
  c.isAlphanum || "-;/?:@&=+$,_.!~*\x27()[]%".contains c

/-- Read a byte that is written as a percent sign and two digits. -/
def escapedByte : Reader UInt8 := do
  skip 1
  let digits := (← get).rest.take 2
  match digits, ofDigitRow? 16 digits with
  | [_, _], some n =>
    skip 2
    return UInt8.ofNat n
  | _, _ => malformed

/-- Read a row of escaped bytes, which must be the UTF-8 form of some text. -/
def escapedBytes : Nat → Reader (List UInt8)
  | 0 => return []
  | fuel + 1 => do
    if (← peek) == '%' then
      let byte ← escapedByte
      return byte :: (← escapedBytes fuel)
    else return []

/-- Read the characters of a tag, some of which may be escaped. -/
def tagText : Nat → Reader (List Char)
  | 0 => return []
  | fuel + 1 => do
    let head ← peek
    if head == '%' then
      let bytes ← escapedBytes fuel
      match Text.Utf8.decode bytes with
      | .ok text => return text.toList ++ (← tagText fuel)
      | .error _ => malformed
    else if isTagPart head then
      skip 1
      return head :: (← tagText fuel)
    else return []

/-- Read a tag, or the part of one behind its handle; it may not be empty. -/
def tagSuffix : Reader String := do
  let c ← get
  if !isTagPart c.peek then malformed
  else return String.ofList (← tagText (c.rest.length + 1))

/-- Read a handle: a single mark, or a name between two marks. -/
def tagHandle : Reader String := do
  expect (· == '!')
  skip 1
  if (← peek) == ' ' then return "!"
  else
    let text ← takeWhile isNamePart
    expect (· == '!')
    skip 1
    return String.ofList ('!' :: text ++ ['!'])

/-- Read a tag: its handle, if it has one, and the rest. -/
def tag : Reader (Option String × String) := do
  let c ← get
  let found ←
    if c.peekAt 1 == '<' then
      skip 2
      let suffix ← tagSuffix
      expect (· == '>')
      skip 1
      pure (none, suffix)
    else if isSpacing (c.peekAt 1) then
      skip 1
      pure (none, "!")
    else
      let word := (c.rest.drop 1).takeWhile fun c => !isGap c
      let handle ← if word.contains '!' then tagHandle else
        skip 1
        pure "!"
      pure (some handle, ← tagSuffix)
  expect isGap
  return found

/-- Read a number of a version. -/
def versionNumber : Reader Nat := do
  let digits ← takeWhile isDigit
  match ofDigitRow? 10 digits with
  | some n => return n
  | none => malformed

/-- Read a directive. -/
def directive : Reader Directive := do
  skip 1
  let word ← name
  expect isGap
  let found ←
    if word == "YAML".toList then
      spaces
      let major ← versionNumber
      expect (· == '.')
      skip 1
      let minor ← versionNumber
      expect isGap
      pure (.version major minor)
    else if word == "TAG".toList then
      spaces
      let handle ← tagHandle
      expect (· == ' ')
      spaces
      let meaning ← tagSuffix
      expect isGap
      pure (.handle handle meaning)
    else
      discard (takeWhile fun c => !isLineEnd c)
      pure .other
  restOfLine
  return found

end TaintFlow.Yaml.Reader
