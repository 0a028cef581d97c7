import TaintFlow.Payload.Reading
import TaintFlow.Chain.Validation
import TaintFlow.Chain.Concurrency
import TaintFlow.Chain.Reading
import TaintFlow.Text.Quoted

/-!
# The harness

One value that owns the registries, the relay engine, the store, the defined
chains and the event loop.  Components are registered first, then chains are
defined over them and run.  A chain is checked against the registries when it is
defined; whether its taint survives is only known after a run.

Everything that fails leaves the harness as it was, but for what a run has
already done to the world.
-/

namespace TaintFlow

/-!
## Harness settings

How long capabilities and boundary operators may take unless something else
says so, and whether loaded values are checked against what was written.
-/

open Number

/-- The settings of a harness. -/
structure HarnessConfig where
  usualTimeout : Option Binary64 := some (Binary64.ofInt 5)
  boundaryTimeout : Binary64 := Binary64.ofInt 5
  verifyLoads : Bool := true

namespace HarnessConfig

/-- Read the settings of a harness; what is not given keeps its default. -/
def read (entries : Payload.Entries) : Checked HarnessConfig :=
  let usual : HarnessConfig := {}
  (Checked.apply ·
    (Payload.fieldOr "verify_store_loads" usual.verifyLoads Payload.readTruth entries)) <|
  (Checked.apply ·
    (Payload.fieldOr "boundary_timeout_s" usual.boundaryTimeout Payload.readSeconds entries)) <|
  (Payload.fieldOr "default_timeout_s" usual.usualTimeout
    (Payload.readOptional Payload.readSeconds) entries).map HarnessConfig.mk

end HarnessConfig

end TaintFlow

/-! ## The harness -/

namespace TaintFlow

/-- Registered components, defined chains, and the world and the loop that runs share. -/
structure Harness where
  network : Network
  chains : Assoc String Chain := []
  world : World := {}
  loop : EventLoop := {}
  /-- The number of ids that were made up. -/
  issued : Nat := 0

namespace Harness

/-- A harness with nothing registered but the operators of its engine. -/
def empty (config : HarnessConfig := {}) : Harness :=
  { network :=
    { engine := .crossing true config.boundaryTimeout
      usualTimeout := config.usualTimeout
      verifyLoads := config.verifyLoads } }

/-- The part that ids of one length have in common. -/
def idStem (width : Nat) : List Char := (List.replicate width ['5', 'a']).flatten.take (width - 8)

/-- A fresh id of some length: hexadecimal digits, the last of which count the ids. -/
def freshId (h : Harness) (width : Nat) : String × Harness :=
  let issued := h.issued + 1
  (String.ofList (idStem width ++ Text.hexPadded 8 issued), { h with issued })

/-- The alternative that a payload names. -/
def named (α : Type) [Enumeration α] (what : String) (payload : Payload) : Except Mishap α :=
  match payload with
  | .text s =>
    match Enumeration.ofName? s with
    | some a => .ok a
    | none => .error (.badValue s!"{payload.shown} is not a valid {what}")
  | _ => .error (.badValue s!"{payload.shown} is not a valid {what}")

/-- The alternative that a payload names, if it names one at all. -/
def namedOption (α : Type) [Enumeration α] (what : String) :
    Option Payload → Except Mishap (Option α)
  | none | some .null => .ok none
  | some payload => (named α what payload).map some

/-- The category of sources that a payload names. -/
def sourceCategory? : Option Payload → Except Mishap (Option SourceCategory) :=
  namedOption SourceCategory "SourceCategory"

/-- The category of sinks that a payload names. -/
def sinkCategory? : Option Payload → Except Mishap (Option SinkCategory) :=
  namedOption SinkCategory "SinkCategory"

/-- Register a source that has been described in full. -/
def addSource (h : Harness) (draft : SourceDraft) : Except Failure (Source × Harness) := do
  let s ← draft.check.mapError .invalid
  let sources ← (h.network.sources.add s).mapError .fault
  return (s, { h with network := { h.network with sources } })

/-- Register a source; a plain function is adapted to the role. -/
def registerSource (h : Harness) (draft : SourceDraft) (given : Bool) :
    Except Failure (Source × Harness) :=
  if draft.category = .null || !given then
    .error (.mishap (.badType "register_source needs a category and a produce capability"))
  else h.addSource { draft with provider := draft.provider.adapted }

/-- Register a sink that has been described in full. -/
def addSink (h : Harness) (draft : SinkDraft) : Except Failure (Sink × Harness) := do
  let s ← draft.check.mapError .invalid
  let sinks ← (h.network.sinks.add s).mapError .fault
  return (s, { h with network := { h.network with sinks } })

/-- The members of whatever can be gone through. -/
def membersOf (payload : Payload) : Except Mishap (List Payload) := Builtin.membersOf payload

/-- The categories that a payload names, one or several. -/
def categoriesOf (payload : Payload) : Except Mishap (List SinkCategory) := do
  let names ← match payload with
    | .text s => pure [.text s]
    | other => membersOf other
  names.mapM (named SinkCategory "SinkCategory")

/-- Register a sink; a plain function is adapted to the role. -/
def registerSink (h : Harness) (draft : SinkDraft) (given : Bool) :
    Except Failure (Sink × Harness) := do
  if draft.categories = .null || !given then
    throw (.mishap (.badType "register_sink needs categories and a consume capability"))
  let categories ← (categoriesOf draft.categories).mapError .mishap
  h.addSink { draft with
    categories := .list (categories.map fun c => .text c.text)
    provider := draft.provider.adapted }

/-- An arity that an operator may have. -/
def checkArity : Option Int → Except Mishap { arity : Option Nat // ∀ n, arity = some n → 0 < n }
  | none => .ok ⟨none, pos_of_variadic⟩
  | some n =>
    if h : 1 ≤ n then .ok ⟨some n.toNat, fun _ e =>
      Option.some.inj e ▸ Int.lt_toNat.mpr h⟩
    else .error (.badValue s!"arity must be >= 1 or None (variadic), got {n}")

/-- Register an operator. -/
def registerOperator (h : Harness) (operator : Operator) : Except Failure (Operator × Harness) := do
  let engine ← (h.network.engine.add operator).mapError .fault
  return (operator, { h with network := { h.network with engine } })

/-- Register an operator under an arity that has not been checked. -/
def registerRelay (h : Harness) (operator : Operator) (arity : Option Int) :
    Except Failure (Operator × Harness) := do
  let checked ← (checkArity arity).mapError .mishap
  h.registerOperator { operator with arity := checked.val, arity_pos := checked.property }

/-- Define a chain that has been read. -/
def addChain (h : Harness) (c : Chain) : Except Fault (ChainHandle × Harness) := do
  if h.chains.has c.id then throw ⟨.duplicate .chain c.id, none⟩
  c.validate h.network
  return (c.handle, { h with chains := h.chains.put c.id c })

/-- The fields of a chain as they are given to `define`. -/
structure ChainDraft where
  id : Payload := .null
  expected : Payload
  steps : Payload
  name : Payload := .text ""
  description : Payload := .text ""
  tags : Payload := .list []

/-- Define a chain; without an id it gets one. -/
def define (h : Harness) (draft : ChainDraft) : Except Failure (ChainHandle × Harness) := do
  let (id, h) :=
    if draft.id.isPresent then (draft.id, h)
    else
      let (id, h) := h.freshId 12
      (.text ("chain-" ++ id), h)
  let steps ← (membersOf draft.steps).mapError .mishap
  let tags ← (membersOf draft.tags).mapError .mishap
  let entries : Payload.Entries :=
    [(.text "chain_id", id), (.text "expected_category", draft.expected),
     (.text "steps", .list steps), (.text "name", draft.name),
     (.text "description", draft.description), (.text "tags", .list tags)]
  match Checked.named "Chain" (Chain.read entries) with
  | .error what => throw (.ofCause (.invalidChain id what))
  | .ok c => (h.addChain c).mapError .fault

/-- The chain of an id. -/
def getChain (h : Harness) (id : String) : Except Fault Chain :=
  match h.chains.find? id with
  | some c => .ok c
  | none => .error ⟨.unknown .chain id, none⟩

/-- The chains in the order of their ids, all of them or those of a category. -/
def listChains (h : Harness) (category : Option SinkCategory := none) : List Chain :=
  let sorted := (h.chains.map Prod.snd).mergeSort fun a b => !decide (b.id < a.id)
  match category with
  | none => sorted
  | some wanted => sorted.filter fun c => c.expected = wanted

/-- The partition ids of a run as they are given. -/
structure ScopesDraft where
  execution : Option Payload := none
  session : Option Payload := none

/-- Check the partition ids of a run; a run without an id gets one. -/
def readScopes (h : Harness) (draft : ScopesDraft) : Except Failure (RunScopes × Harness) := do
  let (usual, h) := h.freshId 32
  let at_ {α : Type} (name : String) (reading : Checked α) : Checked α :=
    reading.under (.field name)
  let execution := match draft.execution with
    | some given => at_ "execution_id" (Payload.readText given)
    | none => .ok usual
  let session := match draft.session with
    | some given => at_ "session_id" (Payload.readOptional Payload.readText given)
    | none => .ok none
  let (execution, session) ←
    (Checked.named "RunScopes" (Checked.both execution session)).mapError .invalid
  return (⟨execution, session⟩, h)

/-- A chain that touches session values needs a session. -/
def requireSession (c : Chain) (scopes : RunScopes) : Except Mishap Unit :=
  if scopes.session = none ∧ c.usesSession then
    .error (.badValue (s!"chain {Text.quoted c.id} uses session storage; " ++
      "RunScopes.session_id is required"))
  else .ok ()

/-- How an attempt to run a chain ended. -/
inductive Attempt where
  | returned (h : Harness) (result : RunResult)
  | raised (h : Harness) (failure : Failure)
  | stalled (h : Harness)

/-- Run a chain once, whether it is defined or not. -/
def execute (h : Harness) (r : Run) : Attempt × Run :=
  match h.loop.run h.network h.world r with
  | (.returned world r, loop) => (.returned { h with world, loop } r.result, r)
  | (.raised world r mishap, loop) => (.raised { h with world, loop } (.mishap mishap), r)
  | (.stalled world r, loop) => (.stalled { h with world, loop }, r)

/-- A run of a defined chain that has not started.  An unknown id or a missing session keeps it
from starting. -/
def newRun (h : Harness) (id : String) (scopes : RunScopes) (context : Payload)
    (timeout : Option Timeout) : Except Failure (Run × Harness) := do
  let c ← (h.getChain id).mapError .fault
  (requireSession c scopes).mapError .mishap
  let (runId, h) := h.freshId 32
  return (Run.fresh c scopes runId context timeout, h)

/-- Run a defined chain once.  Errors inside steps are part of the result; only an unknown id
or a missing session keeps a run from starting. -/
def runChain (h : Harness) (id : String) (scopes : RunScopes) (context : Payload := .null)
    (timeout : Option Timeout := none) : Attempt :=
  match h.newRun id scopes context timeout with
  | .error failure => .raised h failure
  | .ok (r, h) => (h.execute r).1

/-- Runs of several defined chains, each under an execution id of its own; where one cannot
start, the reason. -/
def newRuns (h : Harness) (session : Option String) (context : Payload)
    (timeout : Option Timeout) : List String → List (Except Failure Run) × Harness
  | [] => ([], h)
  | id :: rest =>
    let (execution, h) := h.freshId 32
    match h.newRun id ⟨execution, session⟩ context timeout with
    | .ok (r, h) =>
      let (runs, h) := h.newRuns session context timeout rest
      (.ok r :: runs, h)
    | .error failure =>
      let (runs, h) := h.newRuns session context timeout rest
      (.error failure :: runs, h)

/-- Run several defined chains at once.  If one of them cannot start, the others go on without
their caller. -/
def runMany (h : Harness) (ids : List String) (session : Option String) (context : Payload)
    (timeout : Option Timeout) : Except (Option Failure) (List RunResult) × Harness :=
  let (runs, h) := h.newRuns session context timeout ids
  let (results, world, loop) := h.loop.runTogether h.network h.world runs
  (results, { h with world, loop })

/-- Let the runs that are left in the loop go on while something is waited for. -/
def passTime (h : Harness) (wait : Wait) : Harness :=
  if h.loop.isIdle then h
  else
    let (_, world, loop) := h.loop.passTime h.network h.world wait
    { h with world, loop }

/-- Ask a source for a fresh value, outside all runs. -/
def callSource (h : Harness) (id : String) (context : Payload) (timeout : Option Timeout) :
    Option (Except Fault Value) × Harness :=
  let h := h.passTime (h.world.sourceWait h.network id context timeout)
  let (outcome, world) := h.world.callSource h.network {} id context timeout
  (outcome, { h with world })

/-- Hand a value to a sink, outside all runs. -/
def callSink (h : Harness) (id : String) (value : Value) (timeout : Option Timeout) :
    Option (Except Fault SinkResult) × Harness :=
  let h := h.passTime (h.world.sinkWait h.network id value timeout)
  let (outcome, world) := h.world.callSink h.network {} id value timeout
  (outcome, { h with world })

/-- Apply an operator, outside all runs. -/
def applyOperator (h : Harness) (id : String) (inputs : List Value) (params : Params)
    (step : Option Int) : Option (Except Fault Value) × Harness :=
  let h := h.passTime (h.world.operatorWait h.network id inputs params step)
  let (outcome, world) := h.world.applyOperator h.network {} id inputs params step
  (outcome, { h with world })

/-- Clear everything that was stored under a session; the number of values that were live. -/
def endSession (h : Harness) (session : String) : Except Mishap (Nat × Harness) := do
  let p ← Scope.session.partition (some session)
  let dropped := h.world.store.liveCount p
  let world := (h.world.edit {} (.clearAll p)).say {} (.sessionEnded session dropped)
  return (dropped, { h with world })

/-- What a scanner should find in a chain. -/
structure GroundTruth where
  chain : String
  name : String
  expected : SinkCategory
  sources : List (String × SourceCategory)
  sinks : List (String × SortedSet SinkCategory)
  kinds : List StepKind
  operators : List String
  tags : List String
  description : String

/-- What a scanner should find in one chain. -/
def truthOf (h : Harness) (c : Chain) : Except Fault GroundTruth := do
  let sources ← c.sources.mapM fun id => do return (id, (← h.network.sources.get id).category)
  let sinks ← c.sinks.mapM fun id => do return (id, (← h.network.sinks.get id).categories)
  return {
    chain := c.id, name := c.handle.name, expected := c.expected, sources, sinks
    kinds := c.steps.map Step.kind, operators := c.operators, tags := c.tags
    description := c.description }

/-- What a scanner should find in the defined chains. -/
def groundTruth (h : Harness) (category : Option SinkCategory := none) :
    Except Fault (List GroundTruth) :=
  (h.listChains category).mapM h.truthOf

/-- The description of a chain as JSON. -/
def GroundTruth.toJson (t : GroundTruth) : Json :=
  let texts (l : List String) : Json := .array (l.map .text)
  .object [("chain_id", .text t.chain), ("name", .text t.name),
    ("expected_category", .text t.expected.text),
    ("sources", .array (t.sources.map fun (id, category) =>
      .object [("id", .text id), ("category", .text category.text)])),
    ("sinks", .array (t.sinks.map fun (id, categories) =>
      .object [("id", .text id),
        ("categories", texts (categories.toList.map SinkCategory.text))])),
    ("step_kinds", texts (t.kinds.map StepKind.text)),
    ("operators", texts t.operators),
    ("tags", texts t.tags),
    ("description", .text t.description)]

end Harness

end TaintFlow
