import TaintFlow.World

/-!
# Running a chain

A run owns a stack of active values, the labels that entered it and the labels
that it wrote to the store.  `advance` takes one turn of a run: a step, or one
source of a step that merges several.  Between two turns anything else may
change the world; what a run does is therefore a matter of its own state and
of the world at each of its turns.

A step that fails ends the run, and so does a sink.  Whatever ends it, the run's
own partition of the store is released.
-/

namespace TaintFlow

/-- How far a call of one of several sinks has come. -/
inductive SinkCall where
  | due
  | underway
  | ended (outcome : Except Fault SinkResult)

/-- What came of a call that has ended. -/
def SinkCall.outcome? : SinkCall → Option (Except Fault SinkResult)
  | ended outcome => some outcome
  | _ => none

/-- A run of a chain. -/
structure Run where
  chain : Chain
  context : Payload := .null
  timeout : Option Timeout := none
  /-- The index of the step that is next. -/
  next : Nat := 0
  /-- The values that a merge has collected so far. -/
  gathered : List Value := []
  /-- The merge has read what it reads from the store. -/
  loaded : Bool := false
  /-- The calls of the sinks that the active value is being handed to. -/
  calls : List SinkCall := []
  /-- The active values, oldest first. -/
  stack : List Value := []
  /-- The labels that entered the run. -/
  origins : LabelSet := ∅
  /-- The labels that the run wrote, by scope and key. -/
  written : Assoc StoreRef LabelSet := []
  result : RunResult

namespace Run

/-- A run that has not started. -/
def fresh (chain : Chain) (scopes : RunScopes) (runId : String) (context : Payload := .null)
    (timeout : Option Timeout := none) : Run :=
  { chain, context, timeout
    result := { runId, chain := chain.id, expected := chain.expected, scopes } }

/-- The partition ids of the run. -/
def scopes (r : Run) : RunScopes := r.result.scopes

/-- The state of the run. -/
def state (r : Run) : RunState := r.result.state

/-- The active value. -/
def top? (r : Run) : Option Value := r.stack.getLast?

/-- Where the run is. -/
def location (r : Run) : World.Location := ⟨some r.chain.id, some r.next⟩

/-- Is the next step the last one? -/
def atLast (r : Run) : Bool := r.next = r.chain.lastIndex

/-- The run with more labels that entered it. -/
def entered (r : Run) (labels : LabelSet) : Run := { r with origins := r.origins ∪ labels }

/-- Start a run that is pending. -/
def start (w : World) (r : Run) : Except Mishap (World × Run) := do
  let state ← r.state.moveTo .running
  return (w.say ⟨some r.chain.id, none⟩ (.runStarted r.chain.id r.chain.steps.length),
    { r with result := { r.result with state } })

/-- The entry of a step that shows the active value. -/
def entry (r : Run) (step : Step) (outcome : HopOutcome := .notApplicable)
    (error : Option ErrorRecord := none) : StepTrace :=
  { index := r.next, step, outcome, error
    labels := (r.top?.map Value.labels).getD ∅
    hops := (r.top?.map Value.hops).getD 0 }

/-- End a run. -/
def finish (r : Run) (state : RunState) (error : Option ErrorRecord) : Run :=
  { r with result := { r.result with state, error } }

/-- Add an entry to the trace. -/
def record (r : Run) (entry : StepTrace) : Run :=
  { r with result := { r.result with trace := r.result.trace ++ [entry] } }

/-- Add what sinks said. -/
def heard (r : Run) (results : List SinkResult) : Run :=
  { r with result := { r.result with sinkResults := r.result.sinkResults ++ results } }

/-- How a turn ended. -/
inductive Turn where
  /-- Something never came back. -/
  | stalled
  /-- A merge has one more of its inputs. -/
  | partly (run : Run)
  | failed (run : Run) (fault : Fault)
  | crashed (run : Run) (mishap : Mishap)
  | passed (run : Run) (entry : StepTrace)

/-- The failure of a step as a turn. -/
def stopped (r : Run) : Failure → Turn
  | .fault fault => .failed r fault
  | .mishap mishap => .crashed r mishap
  | .invalid what => .crashed r ⟨"ValidationError", what.message⟩

/-- Read a value that is live at a key. -/
def readSlot (store : Store) (p : Partition) (key : String) : Except Fault Value :=
  match store.slot? p key with
  | some (.live value _) => .ok value
  | some .cleared => .error ⟨.cleared p.scope p.id key, none⟩
  | none => .error ⟨.notFound p.scope p.id key, none⟩

/-- Read a stored value.  If this run wrote to the key, the value has to carry what was
written. -/
def load (network : Network) (store : Store) (r : Run) (ref : StoreRef) :
    Except Failure (Value × Run) := do
  let p ← (ref.scope.partition (r.scopes.idFor ref.scope)).mapError .mishap
  let value ← (readSlot store p ref.key).mapError .fault
  match r.written.find? ref with
  | some labels =>
    if network.verifyLoads then
      (ensureLabels s!"{ref.scope.text}:{ref.key}" labels value (some r.next)).mapError .fault
  | none => pure ()
  return (value, r.entered value.labels)

/-- Read several stored values, one after the other; a failure leaves what was read before. -/
def loadAll (network : Network) (store : Store) (r : Run) :
    List StoreRef → List Value → Except (Failure × Run) (List Value × Run)
  | [], values => .ok (values, r)
  | ref :: rest, values =>
    match load network store r ref with
    | .ok (value, r) => loadAll network store r rest (values ++ [value])
    | .error failure => .error (failure, r)

/-- Decide how a run ends whose taint has reached the last sinks. -/
def conclude (w : World) (r : Run) (entry : StepTrace) (delivered : Value) : World × Turn :=
  let missing := r.origins \ delivered.labels
  if delivered.isTainted && missing.isEmpty then (w, .passed (r.finish .completed none) entry)
  else
    let message :=
      if delivered.isTainted then s!"{missing.size} origin label(s) did not reach the sink"
      else "value reached the sink without any provenance labels"
    let error : ErrorRecord :=
      { kind := .fault .chainBroken, message, step := some r.next
        component := entry.sinkResults.head?.map SinkResult.sink
        missing := missing.texts }
    (w.say r.location (.chainBroken r.chain.id r.next missing.size),
      .passed (r.finish .broken (some error)) { entry with error := some error })

/-- Take a value from a source. -/
def runSource (network : Network) (w : World) (r : Run) (step : Step) (id : String) :
    World × Turn :=
  match w.callSource network r.location id r.context r.timeout with
  | (none, w) => (w, .stalled)
  | (some (.error fault), w) => (w, .failed r fault)
  | (some (.ok value), w) =>
    let r := { r.entered value.labels with stack := r.stack ++ [value] }
    (w, .passed r (r.entry step .introduced))

/-- Apply an operator to the youngest active values. -/
def runRelay (network : Network) (w : World) (r : Run) (step : Step) (id : String)
    (params : Params) : World × Turn :=
  match network.engine.get id with
  | .error fault => (w, .failed r fault)
  | .ok operator =>
    let held := r.stack.length
    let count := operator.arity.getD held
    if count = 0 ∨ held < count then
      (w, .failed r ⟨.shortStack id (if count = 0 then 1 else count) held, some r.next⟩)
    else
      let inputs := r.stack.drop (held - count)
      match w.applyOperator network r.location id inputs params (some r.next) with
      | (none, w) => (w, .stalled)
      | (some (.error fault), w) => (w, .failed r fault)
      | (some (.ok output), w) =>
        let r := { r with stack := r.stack.take (held - count) ++ [output] }
        (w, .passed r (r.entry step (classify inputs output)))

/-- Write the active value to the store, one hop on. -/
def runStore (w : World) (r : Run) (step : Step) (target : StoreRef) : World × Turn :=
  match r.top? with
  | none => (w, .failed r ⟨.noActiveValue step.kind, some r.next⟩)
  | some value =>
    let value := value.forward
    match target.scope.partition (r.scopes.idFor target.scope) with
    | .error mishap => (w, .crashed r mishap)
    | .ok p =>
      let w := w.edit r.location (.put p target.key value value.hops)
      (w, .passed { r with written := r.written.put target value.labels }
        { index := r.next, step, labels := value.labels, hops := value.hops,
          outcome := .preserved })

/-- Read a stored value onto the stack. -/
def runLoad (network : Network) (w : World) (r : Run) (step : Step) (origin : StoreRef) :
    World × Turn :=
  match load network w.store r origin with
  | .error failure => (w, r.stopped failure)
  | .ok (value, r) =>
    let r := { r with stack := r.stack ++ [value] }
    (w, .passed r (r.entry step .introduced))

/-- All inputs of a merge, those that are stored being read unless they have been. -/
def mergeInputs (network : Network) (store : Store) (r : Run) (loads : List StoreRef) :
    Except (Failure × Run) (List Value × Run) :=
  if r.loaded then .ok (r.gathered, r)
  else
    match loadAll network store r loads r.gathered with
    | .ok (inputs, r) => .ok (inputs, { r with gathered := inputs, loaded := true })
    | .error failure => .error failure

/-- Read the stored inputs of a merge and apply its operator to all inputs. -/
def runMergeEnd (network : Network) (w : World) (r : Run) (step : Step) (loads : List StoreRef)
    (id : String) (params : Params) : World × Turn :=
  match mergeInputs network w.store r loads with
  | .error (failure, r) => (w, r.stopped failure)
  | .ok (inputs, r) =>
    match w.applyOperator network r.location id inputs params (some r.next) with
    | (none, w) => (w, .stalled)
    | (some (.error fault), w) => (w, .failed r fault)
    | (some (.ok output), w) =>
      let r := { r with stack := r.stack ++ [output], gathered := [], loaded := false }
      (w, .passed r (r.entry step (classify inputs output)))

/-- Ask the next source of a merge, or end the merge if all have been asked. -/
def runMerge (network : Network) (w : World) (r : Run) (step : Step) (sources : List String)
    (loads : List StoreRef) (id : String) (params : Params) : World × Turn :=
  match sources[r.gathered.length]? with
  | none => runMergeEnd network w r step loads id params
  | some source =>
    match w.callSource network r.location source r.context r.timeout with
    | (none, w) => (w, .stalled)
    | (some (.error fault), w) => (w, .failed r fault)
    | (some (.ok value), w) =>
      (w, .partly { r.entered value.labels with gathered := r.gathered ++ [value] })

/-- The result of a sink that rejected its value. -/
def rejection (fault : Fault) : SinkResult :=
  let (labels, hops) := fault.cause.observed
  { sink := fault.cause.component.getD "", accepted := false, labels, hops,
    error := some fault.message }

/-- A call of one of several sinks from start to end: what is waited for, how it ended, and what
it said, latest first. -/
structure WholeCall where
  wait : Wait
  outcome : Option (Except Fault SinkResult)
  notices : List LoggedNotice

/-- Hand a value to several sinks at once: the outcomes in order, and the world after them.
What the calls have to say is said in the order in which they end. -/
def callSinks (network : Network) (w : World) (r : Run) (value : Value) (sinks : List String) :
    List (Option (Except Fault SinkResult)) × World :=
  let (calls, after) := sinks.foldl (fun (calls, (w : World)) id =>
    let wait := w.sinkWait network id value r.timeout
    let quiet := { w with notices := [] }
    let (outcome, w) := quiet.callSink network r.location id value r.timeout
    (calls ++ [{ wait, outcome, notices := w.notices : WholeCall }], w)) ([], w)
  let ended := calls.mergeSort fun a b => !b.wait.endsBefore a.wait
  let notices := ended.foldl (fun said call => call.notices ++ said) w.notices
  (calls.map WholeCall.outcome, { after with notices })

/-- What the sinks of a fan-out said, and the first rejection; a fault of another kind is the
fault of the step. -/
def gatherSinks : List (Except Fault SinkResult) →
    Except Fault (List SinkResult × Option Fault)
  | [] => .ok ([], none)
  | .ok result :: rest => do
    let (results, rejected) ← gatherSinks rest
    return (result :: results, rejected)
  | .error fault :: rest =>
    if fault.kind = .sinkRejected then do
      let (results, _) ← gatherSinks rest
      return (rejection fault :: results, some fault)
    else .error fault

/-- Is one of the sinks of the expected category? -/
def matchesCategory (network : Network) (expected : SinkCategory) (sinks : List String) : Bool :=
  sinks.any fun id =>
    match network.sinks.get id with
    | .ok s => expected ∈ s.categories
    | .error _ => false

/-- Hand the active value to several sinks, or take what came of it if the sinks have been
called one by one. -/
def runFanout (network : Network) (w : World) (r : Run) (step : Step) (sinks : List String) :
    World × Turn :=
  match r.top? with
  | none => (w, .failed r ⟨.noActiveValue step.kind, some r.next⟩)
  | some value =>
    let delivered := value.forward
    let (outcomes, w) :=
      if r.calls.isEmpty then callSinks network w r delivered sinks
      else (r.calls.map SinkCall.outcome?, w)
    let r := { r with calls := [] }
    match outcomes.mapM id with
    | none => (w, .stalled)
    | some outcomes =>
      match gatherSinks outcomes with
      | .error fault => (w, .failed r fault)
      | .ok (results, rejected) =>
        let entry : StepTrace :=
          { index := r.next, step, labels := delivered.labels, hops := delivered.hops,
            outcome := .preserved, sinkResults := results }
        let r := r.heard results
        let r := if r.atLast then
            { r with result := { r.result with
                final := .list (results.map SinkResult.raw)
                categoryMatch := some (matchesCategory network r.chain.expected sinks) } }
          else r
        match rejected with
        | some fault =>
          let error := { fault with step := some r.next }.record
          let count := (results.filter fun result => !result.accepted).length
          (w.say r.location (.fanoutRejected r.chain.id r.next count results.length),
            .passed (r.finish .failed (some error)) { entry with error := some error })
        | none => if r.atLast then conclude w r entry delivered else (w, .passed r entry)

/-- Hand the active value to a sink, which ends the run. -/
def runSink (network : Network) (w : World) (r : Run) (step : Step) (id : String) :
    World × Turn :=
  match r.top? with
  | none => (w, .failed r ⟨.noActiveValue step.kind, some r.next⟩)
  | some value =>
    let delivered := value.forward
    match w.callSink network r.location id delivered r.timeout with
    | (none, w) => (w, .stalled)
    | (some (.error fault), w) => (w, .failed r fault)
    | (some (.ok result), w) =>
      let r := r.heard [result]
      let r := { r with result := { r.result with
        final := result.raw
        categoryMatch := some (matchesCategory network r.chain.expected [id]) } }
      conclude w r { index := r.next, step, labels := result.labels, hops := result.hops,
                     outcome := .preserved, sinkResults := [result] } delivered

/-- Take a turn of a step. -/
def runStep (network : Network) (w : World) (r : Run) (step : Step) : World × Turn :=
  match step with
  | .source id => runSource network w r step id
  | .relay operator params => runRelay network w r step operator params
  | .store target => runStore w r step target
  | .load origin => runLoad network w r step origin
  | .fanout sinks => runFanout network w r step sinks
  | .merge sources loads operator params => runMerge network w r step sources loads operator params
  | .sink id => runSink network w r step id

/-- Record a step that failed and end the run. -/
def fail (w : World) (r : Run) (step : Step) (fault : Fault) : World × Run :=
  let fault := fault.atStep (some r.next)
  let error := fault.record (some r.next)
  let rejected := fault.kind = .sinkRejected
  let entry : StepTrace :=
    if rejected then
      let result := rejection fault
      { index := r.next, step, labels := result.labels, hops := result.hops,
        sinkResults := [result], error := some error }
    else
      r.entry step (if fault.kind = .taintLoss then .lost else .notApplicable) (some error)
  let r := (r.heard entry.sinkResults).record entry
  (w.say r.location (.stepFailed r.chain.id r.next fault.kind fault.cause.component),
    r.finish (if fault.kind.breaks then .broken else .failed) (some error))

/-- Record a step that failed for a reason of its own and end the run. -/
def crash (w : World) (r : Run) (step : Step) (mishap : Mishap) : World × Run :=
  let error : ErrorRecord :=
    { kind := .internal, message := s!"{mishap.kind}: {mishap.text}", step := some r.next }
  (w.say r.location (.stepCrashed r.chain.id r.next),
    (r.record (r.entry step .notApplicable (some error))).finish .failed (some error))

/-- A run that has come to the end of its steps without a sink is broken. -/
def exhaust (r : Run) : Run :=
  if r.state = .running ∧ r.chain.steps.length ≤ r.next then
    let fault : Fault := ⟨.noSinkReached, some r.chain.steps.length⟩
    r.finish .broken (some fault.record)
  else r

/-- Close a run that has ended: release its own partition of the store, and count it.  Without
an id there is no partition to release, and the run stays open. -/
def close (w : World) (r : Run) : Except Mishap (World × Run) := do
  let p ← Scope.request.partition (some r.scopes.execution)
  let w := w.edit ⟨some r.chain.id, none⟩ (.release p)
  let r := { r with result := { r.result with origins := r.origins, finished := true } }
  let w := w.count (.chainRuns r.chain.expected r.state)
  return (w.say ⟨some r.chain.id, none⟩
    (.runFinished r.chain.id r.state (r.result.error.map ErrorRecord.kind)), r)

/-- What the world and a run are after a turn; `none` if nothing happened. -/
def afterTurn (step : Step) (r : Run) (w : World) : Turn → Option (World × Run)
  | .stalled => none
  | .partly r => some (w, r)
  | .failed r fault =>
    let (w, r) := fail (w.count (.steps step.kind)) r step fault
    some (w, r)
  | .crashed r mishap =>
    let (w, r) := crash (w.count (.steps step.kind)) r step mishap
    some (w, r)
  | .passed after entry =>
    let next := if after.state.isTerminal then r.next else r.next + 1
    some (w.count (.steps step.kind), exhaust { after.record entry with next })

/-- Take one turn of a run; `none` if it has ended or waits for something that never comes. -/
def advance (network : Network) (w : World) (r : Run) : Option (World × Run) :=
  if r.state = .running then
    match r.chain.steps[r.next]? with
    | none => none
    | some step =>
      let (w, turn) := runStep network w r step
      afterTurn step r w turn
  else none

/-- The number of turns that are left at most. -/
def turnsLeft (r : Run) : Nat :=
  (r.chain.steps.drop r.next).foldl (fun turns step => turns + step.sources.length + 1) 0 -
    r.gathered.length

/-- Take turns until the run ends or stalls. -/
def takeTurns (network : Network) : Nat → World → Run → World × Run
  | 0, w, r => (w, r)
  | fuel + 1, w, r =>
    match advance network w r with
    | some (w, r) => takeTurns network fuel w r
    | none => (w, r)

/-- How a run ended. -/
inductive End where
  | returned (w : World) (r : Run)
  /-- The run could not be started or closed. -/
  | raised (w : World) (r : Run) (mishap : Mishap)
  /-- The run waits for something that never comes. -/
  | stalled (w : World) (r : Run)

/-- Close a run that has ended. -/
def conclusion (w : World) (r : Run) : End :=
  if r.state.isTerminal then
    match close w r with
    | .ok (w, r) => .returned w r
    | .error mishap => .raised w r mishap
  else .stalled w r

/-- Run a chain from start to end without a break. -/
def run (network : Network) (w : World) (r : Run) : End :=
  match start w r with
  | .error mishap => .raised w r mishap
  | .ok (w, r) =>
    let (w, r) := takeTurns network r.turnsLeft w r
    conclusion w r

end Run

end TaintFlow
