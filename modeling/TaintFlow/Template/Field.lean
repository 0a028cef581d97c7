import TaintFlow.Template.Spec
import TaintFlow.Template.Subject
import TaintFlow.Moment.Layout

/-!
# Fields of a template

What stands between braces: the name of an input, a path of attributes and
indexes into it, a conversion and a format specification.  A path is followed
step by step, and the subject that it leads to is laid out.
-/

namespace TaintFlow.Template

open Number

/-- A number in a path, if the text is a row of digits.  Digits that are too many are a fault
whatever follows them. -/
def readIndex (text : List Char) : Except Fault (Option Nat) := do
  match ← readNumber text with
  | (some n, []) => return some n
  | _ => return none

/-- A step of a path. -/
inductive PathStep where
  | field (name : String)
  | position (index : Nat)
  | key (name : String)

/-- The step of an index. -/
def indexStep (name : List Char) : Except Fault PathStep := do
  match ← readIndex name with
  | some n => return .position n
  | none => if name.isEmpty then throw .emptyAttribute else return .key (String.ofList name)

/-- Take the next step from the front of a path. -/
def nextStep (path : List Char) : Except Fault (Option (PathStep × List Char)) :=
  match path with
  | [] => .ok none
  | '.' :: rest =>
    let name := rest.takeWhile fun c => c ≠ '.' ∧ c ≠ '['
    if name.isEmpty then .error .emptyAttribute
    else .ok (some (.field (String.ofList name), rest.drop name.length))
  | '[' :: rest =>
    let name := rest.takeWhile (· ≠ ']')
    match rest.drop name.length with
    | [] => .error .unclosedIndex
    | _ :: tail =>
      match indexStep name with
      | .ok step => .ok (some (step, tail))
      | .error fault => .error fault
  | _ => .error .afterBracket

/-- Go one step of a path. -/
def follow (subject : Subject) : PathStep → Except Fault Subject
  | .field name =>
    match subject.attribute? name with
    | some found => .ok found
    | none => .error (.noAttribute subject.owner name)
  | .position index => subject.atPosition index
  | .key name => subject.atKey name

/-- Follow a whole path; each step takes at least one character of it. -/
def followAll : Nat → Subject → List Char → Except Fault Subject
  | 0, subject, _ => .ok subject
  | fuel + 1, subject, path => do
    match ← nextStep path with
    | none => return subject
    | some (step, rest) => followAll fuel (← follow subject step) rest

/-- Can the text of a subject be written? -/
def checkWritable : Subject → Except Fault Unit
  | .payload p => if p.isWritable then .ok () else .error .numberTooLong
  | _ => .ok ()

/-- Apply a conversion. -/
def convert (subject : Subject) (mark : Char) : Except Fault Subject := do
  if mark ∉ ['r', 's', 'a'] then throw (.unknownConversion mark)
  checkWritable subject
  let text := match mark with
    | 'r' => subject.shown
    | 's' => subject.plain
    | _ => String.ofList (Text.asciiOnly subject.shown.toList)
  return .payload (.text text)

/-- Lay a whole number out under any code. -/
def layInt (kind : String) (n : Int) (text : List Char) : Except Fault (List Char) := do
  let spec ← Spec.read kind true (some 'd') text
  let code := spec.code.getD 'd'
  if ['b', 'c', 'd', 'o', 'x', 'X', 'n'].contains code then spec.layWhole code n
  else if doubleCodes.contains code then
    match Binary64.ofInt? n with
    | some x => spec.layDouble x
    | none => throw .noDouble
  else throw (.unknownCode code kind)

/-- Lay a text out under any code. -/
def layString (chars text : List Char) : Except Fault (List Char) := do
  let spec ← Spec.read "str" false (some 's') text
  match spec.code with
  | some 's' => spec.layText chars
  | code => throw (.unknownCode (code.getD 's') "str")

/-- Lay a payload out by a specification. -/
def layPayload (payload : Payload) (text : List Char) : Except Fault (List Char) :=
  match payload with
  | .text s => layString s.toList text
  | .int n => layInt "int" n text
  | .bool b => layInt "bool" (if b then 1 else 0) text
  | .float x => do
    let spec ← Spec.read "float" true none text
    match spec.code with
    | some code =>
      if doubleCodes.contains code || code = 'n' then spec.layDouble x
      else throw (.unknownCode code "float")
    | none => spec.layDouble x
  | .moment m =>
    if Text.hasHalf text then .error (.notEncoded text) else .ok (m.laidOut text)
  | other => .error (.notFormatted other.typeName)

/-- Lay a subject out by a specification; without one it stands as its own text. -/
def layOut (subject : Subject) (text : List Char) : Except Fault (List Char) := do
  if text.isEmpty then
    checkWritable subject
    return subject.plain.toList
  match subject with
  | .payload p => layPayload p text
  | other => throw (.notFormatted other.typeName)

end TaintFlow.Template
