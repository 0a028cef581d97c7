import TaintFlow.Fault
import TaintFlow.Relay.Boundary
import TaintFlow.Text.Blank
import TaintFlow.Number.Reading

/-!
# The relay engine

The engine holds operators by id and applies them.  Every output stands one hop
past the furthest input, whatever the operator says.  The output of a
preserving operator is checked against the labels of its inputs.  An engine
that knows the boundary operators also bounds the operators that suspend.
-/

namespace TaintFlow

/-!
## Checking provenance

Operators do not police themselves.  These checks are made after each hop, so
that a lost label is caught at the step that lost it.
-/

/-- What became of the labels across one hop. -/
inductive HopOutcome where
  | introduced | preserved | merged | lost | notApplicable
  deriving DecidableEq

/-- The name of an outcome. -/
def HopOutcome.text : HopOutcome → String
  | introduced => "introduced"
  | preserved => "preserved"
  | merged => "merged"
  | lost => "lost"
  | notApplicable => "not_applicable"

/-- The expected labels that a value lacks. -/
def missingLabels (expected : LabelSet) (output : Value) : LabelSet := expected \ output.labels

/-- Refuse a value that lacks an expected label. -/
def ensureLabels (component : String) (expected : LabelSet) (output : Value)
    (step : Option Int := none) : Except Fault Unit :=
  let missing := missingLabels expected output
  if missing.isEmpty then .ok ()
  else .error ⟨.labelsLost component missing step, step⟩

/-- Refuse a value that lacks a label of an input. -/
def ensurePreserved (component : String) (inputs : List Value) (output : Value)
    (step : Option Int := none) : Except Fault Unit :=
  ensureLabels component (Value.unionLabels inputs) output step

/-- Say what became of the labels of the inputs. -/
def classify (inputs : List Value) (output : Value) : HopOutcome :=
  if !(missingLabels (Value.unionLabels inputs) output).isEmpty then .lost
  else if 1 < (inputs.filter Value.isTainted).length then .merged
  else .preserved

/-- A value passes the check exactly if it has every expected label. -/
theorem ensureLabels_eq_ok_iff {component : String} {expected : LabelSet} {output : Value}
    {step : Option Int} :
    ensureLabels component expected output step = .ok () ↔ expected ⊆ output.labels := by
  simp only [ensureLabels]
  have empty : (missingLabels expected output).isEmpty = true ↔ expected ⊆ output.labels := by
    rw [SortedSet.isEmpty_iff, SortedSet.subset_def]
    simp [missingLabels]
  split
  · rename_i h
    exact ⟨fun _ => empty.mp h, fun _ => rfl⟩
  · rename_i h
    exact ⟨nofun, fun sub => absurd (empty.mpr sub) h⟩

/-! ## Engines -/

open Number

/-- Operators by id, in the order of their registration. -/
structure Engine where
  operators : Assoc String Operator := []
  /-- How long an operator may suspend; without it no operator is bounded. -/
  boundary : Option Binary64 := none

/-- What comes of applying an operator; one that never comes back has no outcome. -/
structure Applied where
  outcome : Option (Except Fault Value)
  edits : List Store.Edit := []
  /-- What the caller waits for. -/
  wait : Wait := []

namespace Engine

/-- Add an operator whose id is free. -/
def add (engine : Engine) (operator : Operator) : Except Fault Engine :=
  if engine.operators.has operator.id then .error ⟨.duplicate .operator operator.id, none⟩
  else .ok { engine with operators := engine.operators.put operator.id operator }

/-- Operators by their ids; an id that comes twice keeps the later one. -/
def tableOf (operators : List Operator) : Assoc String Operator :=
  Assoc.ofList (operators.map fun operator => (operator.id, operator))

/-- The engine for one side of a boundary. -/
def plain (builtins : Bool) : Engine :=
  { operators := tableOf (if builtins then Builtin.operators else []) }

/-- The engine that also crosses boundaries. -/
def crossing (builtins : Bool) (boundary : Binary64) : Engine :=
  { operators := tableOf ((if builtins then Builtin.operators else []) ++ Boundary.operators)
    boundary := some boundary }

/-- The operator of an id. -/
def get (engine : Engine) (id : String) : Except Fault Operator :=
  match engine.operators.find? id with
  | some operator => .ok operator
  | none => .error ⟨.unknown .operator id, none⟩

/-- The operators in the order of their ids, all of them or those that preserve labels or
do not. -/
def list (engine : Engine) (preserving : Option Bool := none) : List Operator :=
  let sorted := (engine.operators.map Prod.snd).mergeSort fun a b => !decide (b.id < a.id)
  match preserving with
  | none => sorted
  | some wanted => sorted.filter fun operator => operator.preserving == wanted

/-- The ids of the operators that suspend, sorted. -/
def boundaryOperators (engine : Engine) : List String :=
  (engine.list.filter Operator.suspends).map Operator.id

/-- Read a parameter as a number of seconds. -/
def secondsOf : Payload → Except Mishap Binary64
  | .bool b => .ok (Binary64.ofInt (if b then 1 else 0))
  | .int n =>
    match Binary64.ofInt? n with
    | some x => .ok x
    | none => .error (.tooLarge "int too large to convert to float")
  | .float x => .ok x
  | .text s =>
    match readDouble? ((Text.strip s.toList).map Text.plainDigit) with
    | some x => .ok x
    | none => .error (.badValue s!"could not convert string to float: {Text.quoted s}")
  | .bytes b =>
    match readDouble? (Text.stripOf Text.isAsciiBlank (b.map fun n => Char.ofNat n.toNat)) with
    | some x => .ok x
    | none =>
      .error (.badValue
        s!"could not convert string to float: {String.ofList (Text.quoteBytes b)}")
  | other =>
    .error (.badType
      s!"float() argument must be a string or a real number, not '{other.fullTypeName}'")

/-- The parameter that overrides how long an operator may suspend. -/
def timeoutParameter : String := "timeout_s"

/-- How long a call may take and the parameters that are left; an operator that does not
suspend is not bounded. -/
def bound (engine : Engine) (operator : Operator) (params : Params) :
    Except Mishap (Option Binary64 × Params) :=
  match engine.boundary with
  | some usual =>
    if operator.suspends then do
      let seconds ← secondsOf ((params.find? timeoutParameter).getD (.float usual))
      return (some seconds, params.erase timeoutParameter)
    else return (none, params)
  | none => return (none, params)

/-- What an operator's function returned, as a value: the result of a lifted operator is
labelled here, any other is a value already or nothing of the kind. -/
def label (operator : Operator) (inputs : List Value) (payload : Payload) : Except Fault Value :=
  if operator.lifted then
    .ok (if operator.preserving then .combine inputs payload else .constant payload)
  else
    match Value.ofPayload? payload with
    | some value => .ok value
    | none => .error ⟨.notAValue operator.id payload.typeName, none⟩

/-- Stamp and check an output. -/
def conclude (operator : Operator) (inputs : List Value) (step : Option Int)
    (payload : Payload) : Except Fault Value := do
  let labelled ← (label operator inputs payload).mapError (Fault.atStep · step)
  let output := { labelled with hops := Value.furthest inputs + 1 }
  if operator.preserving then ensurePreserved operator.id inputs output step
  return output

/-- The fault that an operator's trouble is reported as.  A fault of the library's own classes
passes through, and time that runs out in a bounded call is a call that did not resume. -/
def report (operator : String) (limit : Option Binary64) (step : Option Int) : Trouble → Fault
  | .fault fault => fault.atStep step
  | .invalid what => ⟨.operatorRejected operator what, step⟩
  | .mishap mishap =>
    match limit with
    | some seconds =>
      if mishap.isTimeout then ⟨.notResumed operator seconds, step⟩
      else ⟨.operatorRaised operator mishap.outOfTurn, step⟩
    | none => ⟨.operatorRaised operator mishap.outOfTurn, step⟩

/-- Does a limit end the wait for an answer? -/
def isExpired (limit : Option Binary64) (answer : Answer) : Bool :=
  limit.any fun seconds => answer.wait.isEndedBy (.ofSeconds seconds)

/-- The outcome of an answer under a limit. -/
def settle (operator : Operator) (inputs : List Value) (step : Option Int)
    (limit : Option Binary64) (answer : Answer) : Option (Except Fault Value) :=
  if isExpired limit answer then
    limit.map fun seconds => .error ⟨.notResumed operator.id seconds, step⟩
  else if answer.wait.isEndless then none
  else
    some <| match answer.result with
      | .ok payload => conclude operator inputs step payload
      | .error trouble => .error (report operator.id limit step trouble)

/-- Apply an operator to inputs and check what comes out.  An answer that does not come in time
leaves the store alone. -/
def apply (engine : Engine) (id : String) (inputs : List Value) (params : Params)
    (step : Option Int) (store : Store) : Applied :=
  match engine.get id with
  | .error fault => { outcome := some (.error fault) }
  | .ok operator =>
    if inputs.isEmpty || !operator.accepts inputs.length then
      { outcome := some (.error ⟨.inputCount id operator.arity inputs.length, step⟩) }
    else
      match engine.bound operator params with
      | .error mishap => { outcome := some (.error ⟨.operatorRaised id mishap, step⟩) }
      | .ok (limit, params) =>
        let answer := operator.call inputs params store
        { outcome := settle operator inputs step limit answer
          edits := if isExpired limit answer then [] else answer.edits
          wait := answer.wait.within (limit.map .ofSeconds) }

end Engine

end TaintFlow
