import TaintFlow.Chain.Basic
import TaintFlow.Payload.Reading

/-!
# Reading chains

Chains and their steps, read from loosely typed data, as a catalog or a caller
gives them.  The kind of a step decides which fields it has.
-/

namespace TaintFlow

open Payload (field fieldOr)

/-- Read a reference to a stored value. -/
def StoreRef.read (entries : Payload.Entries) : Checked StoreRef :=
  (Checked.apply · (field "key" Payload.readNonempty entries)) <|
    (field "scope" (Payload.readName Scope) entries).map StoreRef.mk

/-- Read a reference to a stored value, which is a mapping. -/
def StoreRef.ofPayload : Payload → Checked StoreRef
  | .map entries => StoreRef.read entries
  | _ => Checked.issue .modelType

namespace Step

/-- The operator that merges values unless another is named. -/
def usualMerge : String := "concat_merge"

/-- The parameters of a step. -/
def readParams (entries : Payload.Entries) : Checked Params :=
  fieldOr "params" [] Payload.readKeyed entries

/-- A merge needs at least two inputs. -/
def checkMerge (sources : List String) (loads : List StoreRef) (operator : String)
    (params : Params) : Checked Step :=
  if sources.length + loads.length < 2 then Checked.issue .refused
  else .ok (.merge sources loads operator params)

/-- Read the fields of a step of a kind. -/
def readKind (entries : Payload.Entries) : StepKind → Checked Step
  | .source => (field "source_id" Payload.readText entries).map Step.source
  | .relay =>
    (Checked.apply · (readParams entries)) <|
      (field "operator_id" Payload.readText entries).map Step.relay
  | .store => (StoreRef.read entries).map Step.store
  | .load => (StoreRef.read entries).map Step.load
  | .fanout => (field "sink_ids" (Payload.readSome Payload.readText) entries).map Step.fanout
  | .sink => (field "sink_id" Payload.readText entries).map Step.sink
  | .merge => do
    let sources := fieldOr "source_ids" [] (Payload.readEach Payload.readText) entries
    let loads := fieldOr "loads" [] (Payload.readEach StoreRef.ofPayload) entries
    let operator := fieldOr "operator_id" usualMerge Payload.readText entries
    let (((sources, loads), operator), params) ←
      Checked.both (Checked.both (Checked.both sources loads) operator) (readParams entries)
    checkMerge sources loads operator params

/-- Read a step. -/
def read : Payload → Checked Step
  | .map entries =>
    match Payload.Entries.text? "kind" entries with
    | none => Checked.issue .noTag
    | some (.text name) =>
      match (Enumeration.ofName? name : Option StepKind) with
      | some kind => (readKind entries kind).under (.field name)
      | none => Checked.issue .unknownTag
    | some _ => Checked.issue .unknownTag
  | _ => Checked.issue .stepType

/-- The fields of a step with all defaults written out. -/
def fields (step : Step) : List (String × Payload) :=
  let text (key value : String) : String × Payload := (key, .text value)
  let params (p : Params) : String × Payload :=
    ("params", .map (p.map fun (key, item) => (.text key, item)))
  let texts (key : String) (values : List String) : String × Payload :=
    (key, .list (values.map .text))
  let ref (r : StoreRef) : List (String × Payload) :=
    [text "scope" r.scope.text, text "key" r.key]
  text "kind" step.kind.text :: match step with
    | .source id => [text "source_id" id]
    | .relay operator p => [text "operator_id" operator, params p]
    | .store target => ref target
    | .load origin => ref origin
    | .fanout sinks => [texts "sink_ids" sinks]
    | .merge sources loads operator p =>
      [texts "source_ids" sources,
       ("loads", .list (loads.map fun r =>
         .map ((ref r).map fun (key, item) => (.text key, item)))),
       text "operator_id" operator, params p]
    | .sink id => [text "sink_id" id]

end Step

namespace Chain

/-- Read steps, of which there is at least one. -/
def readSteps (payload : Payload) : Checked { steps : List Step // steps ≠ [] } := do
  let steps ← Payload.readEach Step.read payload
  if h : steps ≠ [] then return ⟨steps, h⟩ else Checked.issue .tooShort

/-- Read a chain from the fields that are given. -/
def read (entries : Payload.Entries) : Checked Chain :=
  let build (id : String) (expected : SinkCategory) (steps : { steps : List Step // steps ≠ [] })
      (name description : String) (tags : List String) : Chain :=
    { id, expected, steps := steps.val, steps_ne := steps.property, name, description, tags }
  (Checked.apply · (fieldOr "tags" [] (Payload.readEach Payload.readText) entries)) <|
  (Checked.apply · (fieldOr "description" "" Payload.readText entries)) <|
  (Checked.apply · (fieldOr "name" "" Payload.readText entries)) <|
  (Checked.apply · (field "steps" readSteps entries)) <|
  (Checked.apply · (field "expected_category" (Payload.readName SinkCategory) entries)) <|
  (field "chain_id" Payload.readNonempty entries).map build

/-- Read a chain, which is a mapping. -/
def ofPayload : Payload → Checked Chain
  | .map entries => read entries
  | _ => Checked.issue .modelType

end Chain

end TaintFlow
