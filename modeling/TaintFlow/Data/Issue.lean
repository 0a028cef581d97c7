/-!
# Validation issues

What a reader of loosely typed data finds wrong: a place in the data and a kind
of defect.  A reader goes through the whole of its input and lists every issue,
in the order in which the fields are declared.
-/

namespace TaintFlow

/-- A step on the way to a place in nested data. -/
inductive Place where
  | field (name : String)
  | index (n : Int)
  deriving DecidableEq

/-- The kinds of defects. -/
inductive Defect where
  | missing | enumeration | textType | textTooShort | textEncoding | tooShort | listType | dictType
  | modelType | stepType | unknownTag | noTag | setType
  | intType | intParsing | intFromFloat | finiteNumber | intParsingSize
  | floatType | floatParsing | boolType | boolParsing
  | greaterThan | greaterThanEqual | pathType | refused | malformedJson
  deriving DecidableEq

/-- The name of a kind of defect. -/
def Defect.text : Defect → String
  | missing => "missing"
  | enumeration => "enum"
  | textType => "string_type"
  | textTooShort => "string_too_short"
  | textEncoding => "string_unicode"
  | tooShort => "too_short"
  | listType => "list_type"
  | dictType => "dict_type"
  | modelType => "model_type"
  | stepType => "model_attributes_type"
  | unknownTag => "union_tag_invalid"
  | noTag => "union_tag_not_found"
  | setType => "frozen_set_type"
  | intType => "int_type"
  | intParsing => "int_parsing"
  | intFromFloat => "int_from_float"
  | finiteNumber => "finite_number"
  | intParsingSize => "int_parsing_size"
  | floatType => "float_type"
  | floatParsing => "float_parsing"
  | boolType => "bool_type"
  | boolParsing => "bool_parsing"
  | greaterThan => "greater_than"
  | greaterThanEqual => "greater_than_equal"
  | pathType => "path_type"
  | refused => "value_error"
  | malformedJson => "json_invalid"

/-- A defect at a place. -/
structure Issue where
  place : List Place
  defect : Defect
  deriving DecidableEq

/-- All that is wrong with the data of a model. -/
structure Invalid where
  model : String
  issues : List Issue
  deriving DecidableEq

/-- The name of the kind of error that invalid data is. -/
def Invalid.name : String := "ValidationError"

/-- The heading of a list of issues. -/
def Invalid.message (invalid : Invalid) : String :=
  let count := invalid.issues.length
  let noun := if count = 1 then "error" else "errors"
  s!"{count} validation {noun} for {invalid.model}"

/-- The outcome of reading loosely typed data: a value, or every issue with it. -/
abbrev Checked (α : Type) := Except (List Issue) α

namespace Checked

/-- A single issue at the place that is being read. -/
def issue {α : Type} (defect : Defect) : Checked α := .error [⟨[], defect⟩]

/-- Put a step in front of the places of the issues. -/
def under {α : Type} (place : Place) : Checked α → Checked α
  | .ok a => .ok a
  | .error issues => .error (issues.map fun i => { i with place := place :: i.place })

/-- Two readings together: the issues of both. -/
def both {α β : Type} (a : Checked α) (b : Checked β) : Checked (α × β) :=
  match a, b with
  | .ok a, .ok b => .ok (a, b)
  | .error i, .error j => .error (i ++ j)
  | .error i, .ok _ => .error i
  | .ok _, .error j => .error j

/-- Apply a function read so far to one more reading, keeping all issues. -/
def apply {α β : Type} (f : Checked (α → β)) (a : Checked α) : Checked β :=
  (both f a).map fun (f, a) => f a

/-- Every reading of a list, with all issues. -/
def all {α : Type} : List (Checked α) → Checked (List α)
  | [] => .ok []
  | a :: rest => (both a (all rest)).map fun (a, rest) => a :: rest

/-- Read every item of a list at its index. -/
def each {α β : Type} (read : α → Checked β) (items : List α) : Checked (List β) :=
  all (items.zipIdx.map fun (item, i) => (read item).under (.index i))

/-- The outcome as one of a named model. -/
def named {α : Type} (model : String) : Checked α → Except Invalid α
  | .ok a => .ok a
  | .error issues => .error ⟨model, issues⟩

end Checked

end TaintFlow
