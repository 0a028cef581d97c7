import TaintFlow.Payload.Basic
import TaintFlow.Number.Reading
import TaintFlow.Number.Notation
import TaintFlow.Text.Quoted

/-!
# Payloads as text

`Payload.shown` is the text of a payload inside a larger one, where texts are
quoted.  `Payload.plain` is its text on its own, where a text is just itself.
-/

namespace TaintFlow

/-- Join texts with a separator. -/
def commaSeparated (parts : List String) : String := ", ".intercalate parts

/-- The text of a label inside a larger value. -/
def Label.shown (label : Label) : String :=
  let category := label.category.text
  let trust := label.trust.text
  s!"ProvenanceLabel(origin_id={Text.quoted label.origin}, " ++
    s!"category=<SourceCategory.{category}: {Text.quoted category}>, " ++
    s!"trust_level=<TrustLevel.{trust}: {Text.quoted trust}>)"

/-- The text of a set of labels inside a larger value. -/
def LabelSet.shown (labels : LabelSet) : String :=
  if labels.isEmpty then "frozenset()"
  else "frozenset(\x7b" ++ commaSeparated (labels.toList.map Label.shown) ++ "\x7d)"

namespace Payload

/-- The text of a truth value. -/
def boolText (b : Bool) : String := if b then "True" else "False"

/-- The fields of a labelled value, as both texts of it list them. -/
def valueFields (separator payload : String) (labels : LabelSet) (hops : Nat) : String :=
  separator.intercalate
    ["payload=" ++ payload, "labels=" ++ labels.shown, "hop_count=" ++ toString hops]

mutual

/-- The text of a payload inside a larger one. -/
def shown : Payload → String
  | .null => "None"
  | .bool b => boolText b
  | .int n => toString n
  | .float x => x.text
  | .text s => Text.quoted s
  | .bytes b => String.ofList (Text.quoteBytes b)
  | .list items => "[" ++ commaSeparated (shownAll items) ++ "]"
  | .tuple [item] => "(" ++ shown item ++ ",)"
  | .tuple items => "(" ++ commaSeparated (shownAll items) ++ ")"
  | .map entries => "\x7b" ++ commaSeparated (shownEntries entries) ++ "\x7d"
  | .value payload labels hops =>
    "TaintedValue(" ++ valueFields ", " (shown payload) labels hops ++ ")"
  | .set [] => "set()"
  | .set items => "\x7b" ++ commaSeparated (shownAll items) ++ "\x7d"
  | .moment m => m.shown

/-- The texts of the members of a sequence. -/
def shownAll : List Payload → List String
  | [] => []
  | a :: rest => shown a :: shownAll rest

/-- The texts of the entries of a mapping. -/
def shownEntries : List (Payload × Payload) → List String
  | [] => []
  | (k, v) :: rest => (shown k ++ ": " ++ shown v) :: shownEntries rest

end

mutual

/-- Has every number in a payload few enough digits to be written? -/
def isWritable : Payload → Bool
  | .int n => Number.isWritable n
  | .list items | .tuple items | .set items => areWritable items
  | .map entries => entriesAreWritable entries
  | .value payload _ _ => isWritable payload
  | _ => true

/-- Has every number in a sequence few enough digits? -/
def areWritable : List Payload → Bool
  | [] => true
  | a :: rest => isWritable a && areWritable rest

/-- Has every number in a mapping few enough digits? -/
def entriesAreWritable : List (Payload × Payload) → Bool
  | [] => true
  | (k, v) :: rest => isWritable k && isWritable v && entriesAreWritable rest

end

/-- The text of a payload on its own. -/
def plain : Payload → String
  | .text s => s
  | .value payload labels hops => valueFields " " (shown payload) labels hops
  | .moment m => m.plain
  | other => shown other

end Payload

end TaintFlow
