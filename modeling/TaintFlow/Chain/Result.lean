import TaintFlow.Chain.Basic
import TaintFlow.Registry.Sink
import TaintFlow.Relay.Engine
import TaintFlow.Chain.Reading
import TaintFlow.Relay.Wire

/-!
# Results of runs

What a run leaves behind: its state, the trace of its steps, what the sinks
said, and the error that ended it, if one did.  A run starts out pending, then
runs, and ends in one of three ways for good.
-/

namespace TaintFlow

/-- The states of a run. -/
inductive RunState where
  | pending | running | completed | broken | failed
  deriving DecidableEq

namespace RunState

/-- The name of a state. -/
def text : RunState → String
  | pending => "pending"
  | running => "running"
  | completed => "completed"
  | broken => "broken"
  | failed => "failed"

instance : Enumeration RunState where
  all := [pending, running, completed, broken, failed]
  name := text
  mem_all a := by cases a <;> decide
  name_injective a b := by cases a <;> cases b <;> simp [text]

/-- Has the run ended? -/
def isTerminal : RunState → Bool
  | completed | broken | failed => true
  | _ => false

/-- May a run go from one state to another? -/
def allows : RunState → RunState → Bool
  | pending, running => true
  | running, target => target.isTerminal
  | _, _ => false

/-- Go to another state. -/
def moveTo (current target : RunState) : Except Mishap RunState :=
  if current.allows target then .ok target
  else .error ⟨"InvalidStateTransition",
    s!"illegal chain state transition: {current.text} -> {target.text}"⟩

/-- A run that has ended goes nowhere. -/
theorem allows_of_isTerminal {current : RunState} (h : current.isTerminal = true)
    (target : RunState) : current.allows target = false := by
  cases current <;> first | rfl | cases h

end RunState

/-- The kind of a recorded error: a fault of the library, or anything else. -/
inductive ErrorKind where
  | fault (kind : FaultClass)
  | internal
  deriving DecidableEq

/-- The name of a kind of recorded error. -/
def ErrorKind.text : ErrorKind → String
  | fault kind => kind.text
  | internal => "internal_error"

/-- An error as a run records it. -/
structure ErrorRecord where
  kind : ErrorKind
  message : String
  step : Option Int := none
  component : Option String := none
  missing : List String := []
  deriving DecidableEq

/-- The record of a fault that came up at a step. -/
def Fault.record (f : Fault) (step : Option Int := none) : ErrorRecord :=
  { kind := .fault f.kind
    message := f.message
    step := f.step.or step
    component := f.cause.component
    missing := f.cause.missing.texts }

/-- One hop of a run: what the step saw and how provenance fared. -/
structure StepTrace where
  index : Nat
  step : Step
  labels : LabelSet := ∅
  hops : Nat := 0
  outcome : HopOutcome := .notApplicable
  sinkResults : List SinkResult := []
  error : Option ErrorRecord := none
  deriving DecidableEq

/-- The partition ids of the scopes that a run can touch. -/
structure RunScopes where
  execution : String
  session : Option String := none
  deriving DecidableEq

namespace RunScopes

/-- The partition id for a scope. -/
def idFor (scopes : RunScopes) : Scope → Option String
  | .request => some scopes.execution
  | .session => scopes.session
  | .process => none

end RunScopes

/-- The result of a run, so far or for good. -/
structure RunResult where
  runId : String
  chain : String
  expected : SinkCategory
  scopes : RunScopes
  state : RunState := .pending
  trace : List StepTrace := []
  final : Payload := .null
  sinkResults : List SinkResult := []
  origins : LabelSet := ∅
  categoryMatch : Option Bool := none
  error : Option ErrorRecord := none
  /-- The run has been closed. -/
  finished : Bool := false
  deriving DecidableEq

namespace RunResult

/-- Did taint reach the sink? -/
def completed (r : RunResult) : Bool := r.state = .completed

end RunResult

/-!
## Records of runs

The flat form in which a run is kept in a ledger or printed: JSON all through,
with labels as short texts and the parameters of steps as they would go over a
wire.  A chain has a flat form of the same kind.
-/

/-- A text or nothing. -/
def Json.ofText? : Option String → Json
  | some s => .text s
  | none => .null

/-- An array of texts. -/
def Json.ofTexts (texts : List String) : Json := .array (texts.map .text)

/-- A recorded error as JSON. -/
def ErrorRecord.toJson (e : ErrorRecord) : Json :=
  .object [("kind", .text e.kind.text), ("message", .text e.message),
    ("step_index", match e.step with
      | some n => .int n
      | none => .null),
    ("component_id", Json.ofText? e.component), ("missing_labels", Json.ofTexts e.missing)]

/-- A recorded error, or nothing. -/
def ErrorRecord.toJson? : Option ErrorRecord → Json
  | some e => e.toJson
  | none => .null

/-- A step as JSON. -/
def Step.toJson (step : Step) : Except Unwritable Json := do
  let members ← step.fields.mapM fun (key, item) => do return (key, ← Payload.recorded item)
  return .object members

/-- A chain as JSON, with all defaults written out. -/
def Chain.toJson (c : Chain) : Except Unwritable Json := do
  let steps ← c.steps.mapM Step.toJson
  return .object [("chain_id", .text c.id), ("expected_category", .text c.expected.text),
    ("steps", .array steps), ("name", .text c.name), ("description", .text c.description),
    ("tags", Json.ofTexts c.tags)]

/-- A hop as JSON. -/
def StepTrace.toJson (t : StepTrace) : Except Unwritable Json := do
  let step ← t.step.toJson
  let sinks := t.sinkResults.map fun r =>
    Json.object [("sink_id", .text r.sink), ("accepted", .bool r.accepted),
      ("error", Json.ofText? r.error)]
  return .object [("step_index", .int t.index), ("step", step),
    ("labels", Json.ofTexts t.labels.texts), ("hop_count", .int t.hops),
    ("outcome", .text t.outcome.text), ("sinks", .array sinks),
    ("error", ErrorRecord.toJson? t.error)]

/-- A run as JSON.  It fails if a parameter of a step holds bytes that are no text. -/
def RunResult.toRecord (r : RunResult) : Except Mishap Json := do
  let trace ← (r.trace.mapM StepTrace.toJson).mapError Unwritable.inRecord
  return .object [("run_id", .text r.runId), ("chain_id", .text r.chain),
    ("expected_category", .text r.expected.text), ("execution_id", .text r.scopes.execution),
    ("session_id", Json.ofText? r.scopes.session), ("state", .text r.state.text),
    ("error", ErrorRecord.toJson? r.error),
    ("origin_labels", Json.ofTexts r.origins.texts),
    ("sink_category_match", match r.categoryMatch with
      | some b => .bool b
      | none => .null),
    ("trace", .array trace)]

end TaintFlow
