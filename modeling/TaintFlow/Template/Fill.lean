import TaintFlow.Template.Field

/-!
# Filling templates

A template is text with fields between braces; doubled braces stand for single
ones.  Fields are filled from left to right, so a fault in a field is found
before any fault behind it.  Fields are named by position, or left unnamed and
counted, but not both.  A specification may hold fields itself, one level deep.
-/

namespace TaintFlow.Template

/-- A field as it stands in a template. -/
structure Field where
  name : List Char
  conversion : Option Char
  spec : List Char
  /-- The specification holds fields. -/
  nested : Bool

/-- A piece of a template: text, with a field behind it or not. -/
structure Piece where
  text : List Char
  field : Option Field

/-- The text up to the end of a field's name, and what ends it.  A bracket hides whatever
stands before the bracket that closes it. -/
def splitName : Bool → List Char → Except Fault (List Char × Option Char × List Char)
  | _, [] => .ok ([], none, [])
  | true, c :: rest => do
    let (name, stop, tail) ← splitName (c ≠ ']') rest
    return (c :: name, stop, tail)
  | false, c :: rest =>
    if c = '\x7b' then .error .openingInName
    else if c = '\x7d' ∨ c = ':' ∨ c = '!' then .ok ([], some c, rest)
    else do
      let (name, stop, tail) ← splitName (c = '[') rest
      return (c :: name, stop, tail)

/-- The text of a specification up to the brace that closes its field, whether it holds
fields, and the rest; `depth` counts the open braces. -/
def splitSpec : Nat → List Char → Except Fault (List Char × Bool × List Char)
  | _, [] => .error .unclosedSpec
  | depth, c :: rest =>
    if c = '\x7b' then do
      let (spec, _, tail) ← splitSpec (depth + 1) rest
      return (c :: spec, true, tail)
    else if c = '\x7d' then
      match depth with
      | 0 => .ok ([], false, rest)
      | depth + 1 => do
        let (spec, nested, tail) ← splitSpec depth rest
        return (c :: spec, nested, tail)
    else do
      let (spec, nested, tail) ← splitSpec depth rest
      return (c :: spec, nested, tail)

/-- Read a field behind its opening brace. -/
def readField (text : List Char) : Except Fault (Field × List Char) := do
  let (name, stop, rest) ← splitName false text
  match stop with
  | none => throw .unclosedField
  | some ':' =>
    let (spec, nested, rest) ← splitSpec 0 rest
    return (⟨name, none, spec, nested⟩, rest)
  | some '!' =>
    match rest with
    | [] => throw .noConversion
    | [_] => throw .unclosedSpec
    | mark :: '\x7d' :: rest => return (⟨name, some mark, [], false⟩, rest)
    | mark :: ':' :: rest =>
      let (spec, nested, rest) ← splitSpec 0 rest
      return (⟨name, some mark, spec, nested⟩, rest)
    | _ => throw .noColonAfterConversion
  | some _ => return (⟨name, none, [], false⟩, rest)

/-- Take the next piece from the front of a template. -/
def nextPiece (template : List Char) : Except Fault (Piece × List Char) := do
  let text := template.takeWhile fun c => c ≠ '\x7b' ∧ c ≠ '\x7d'
  match template.drop text.length with
  | [] => return (⟨text, none⟩, [])
  | '\x7d' :: rest =>
    match rest with
    | '\x7d' :: rest => return (⟨text ++ ['\x7d'], none⟩, rest)
    | _ => throw .loneClosing
  | _ :: rest =>
    match rest with
    | [] => throw .loneOpening
    | '\x7b' :: rest => return (⟨text ++ ['\x7b'], none⟩, rest)
    | _ =>
      let (field, rest) ← readField rest
      return (⟨text, some field⟩, rest)

/-- How fields have been named so far: not at all, by count, or by position. -/
inductive Numbering where
  | undecided
  | counted (next : Nat)
  | positioned

/-- The position of a field's input, if it is named by one. -/
def position (numbering : Numbering) (name : List Char) :
    Except Fault (Option Nat × Numbering) := do
  let index ← readIndex name
  match index, name with
  | none, _ :: _ => return (none, numbering)
  | some n, _ =>
    match numbering with
    | .counted _ => throw .automaticThenManual
    | _ => return (some n, .positioned)
  | none, [] =>
    match numbering with
    | .positioned => throw .manualThenAutomatic
    | .counted next => return (some next, .counted (next + 1))
    | .undecided => return (some 0, .counted 1)

/-- Look a field's name up among the inputs. -/
def lookUp (inputs : List Payload) (numbering : Numbering) (name : List Char) :
    Except Fault (Subject × Numbering) := do
  let first := name.takeWhile fun c => c ≠ '.' ∧ c ≠ '['
  let path := name.drop first.length
  let (index, numbering) ← position numbering first
  match index with
  | none => throw (.noName (Text.quoted (String.ofList first)))
  | some n =>
    match inputs[n]? with
    | none => throw (.noPosition n)
    | some input => return (← followAll (path.length + 1) (.payload input) path, numbering)

/-- Fill the pieces of a template one after the other.  `levels` bounds how deep fields may
stand inside specifications, `fuel` the number of pieces. -/
def fillFrom (inputs : List Payload) :
    (levels fuel : Nat) → Numbering → List Char → Except Fault (List Char × Numbering)
  | 0, _, _, _ => .error .tooDeep
  | _ + 1, 0, numbering, _ => .ok ([], numbering)
  | levels + 1, fuel + 1, numbering, template =>
    if template.isEmpty then .ok ([], numbering)
    else do
      let (piece, rest) ← nextPiece template
      let (filled, numbering) ← match piece.field with
        | none => pure ([], numbering)
        | some field => do
          let (subject, numbering) ← lookUp inputs numbering field.name
          let subject ← match field.conversion with
            | some mark => convert subject mark
            | none => pure subject
          let (spec, numbering) ←
            if field.nested then
              fillFrom inputs levels (field.spec.length + 1) numbering field.spec
            else pure (field.spec, numbering)
          pure (← layOut subject spec, numbering)
      let (tail, numbering) ← fillFrom inputs (levels + 1) fuel numbering rest
      return (piece.text ++ (filled ++ tail), numbering)
termination_by levels fuel => (levels, fuel)

/-- Fill a template from a row of inputs. -/
def fill (template : String) (inputs : List Payload) : Except Fault String :=
  let chars := template.toList
  (fillFrom inputs 2 (chars.length + 1) .undecided chars).map fun (text, _) => String.ofList text

end TaintFlow.Template
