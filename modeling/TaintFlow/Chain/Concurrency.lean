import TaintFlow.Agenda
import TaintFlow.Chain.Execution

/-!
# Runs side by side

Runs share the world and an event loop.  A run goes on until its next turn has to
wait for something; then the others go on, and the turn is done when the wait is
over.  Whoever drives the loop is its caller.  The caller may wait for a turn of a
run of its own, for an operation outside all runs, or for the runs that it has
started together; in the meantime the loop lets the others go on.

Runs that were started together are waited for until all have ended, or until
one of them has failed to.  The others of a group that failed stay in the loop,
and go on whenever the caller waits again.
-/

namespace TaintFlow

namespace Run

/-- A run that takes an input of a merge or applies its operator, and what it waits for before;
what the merge reads from the store is read before the wait. -/
def prepareMerge (network : Network) (w : World) (r : Run) (sources : List String)
    (loads : List StoreRef) (id : String) (params : Params) : Run × Wait :=
  match sources[r.gathered.length]? with
  | some source => (r, w.sourceWait network source r.context r.timeout)
  | none =>
    match mergeInputs network w.store r loads with
    | .ok (inputs, r) => (r, w.operatorWait network id inputs params (some r.next))
    | .error _ => (r, [])

/-- What a run waits for before it applies an operator to its active values. -/
def relayPause (network : Network) (w : World) (r : Run) (id : String) (params : Params) : Wait :=
  match network.engine.get id with
  | .error _ => []
  | .ok operator =>
    let held := r.stack.length
    let count := operator.arity.getD held
    if held < count then []
    else w.operatorWait network id (r.stack.drop (held - count)) params (some r.next)

/-- A run that begins its next turn, and what it waits for before the turn is done. -/
def prepare (network : Network) (w : World) (r : Run) : Run × Wait :=
  match r.chain.steps[r.next]? with
  | some (.source id) => (r, w.sourceWait network id r.context r.timeout)
  | some (.relay id params) => (r, relayPause network w r id params)
  | some (.merge sources loads id params) => prepareMerge network w r sources loads id params
  | some (.sink id) =>
    match r.top? with
    | some value => (r, w.sinkWait network id value r.timeout)
    | none => (r, [])
  | some (.fanout _) | some (.store _) | some (.load _) | none => (r, [])

/-- The sinks that a run hands its active value to next, if there are several. -/
def nextSinks (r : Run) : List String :=
  match r.chain.steps[r.next]?, r.top? with
  | some (.fanout sinks), some _ => sinks
  | _, _ => []

/-- How far a run has come. -/
inductive Progress where
  /-- The next turn is done when the wait is over. -/
  | waiting (w : World) (r : Run) (wait : Wait)
  /-- The next turn is done when several sinks have been called. -/
  | delivering (w : World) (r : Run)
  | ended (ending : End)

/-- Take turns up to the next one that has to wait. -/
def takeStretch (network : Network) : Nat → World → Run → Progress
  | 0, w, r => .ended (conclusion w r)
  | turns + 1, w, r =>
    if r.state = .running then
      match r.nextSinks, prepare network w r with
      | _ :: _, _ => .delivering w { r with calls := r.nextSinks.map fun _ => .due }
      | [], (r, hop :: rest) => .waiting w r (hop :: rest)
      | [], (r, []) =>
        match advance network w r with
        | some (w, r) => takeStretch network turns w r
        | none => .ended (.stalled w r)
    else .ended (conclusion w r)

/-- Start a run, and take turns up to the next one that has to wait. -/
def setOut (network : Network) (w : World) (r : Run) : Progress :=
  match start w r with
  | .ok (w, r) => takeStretch network (r.turnsLeft + 1) w r
  | .error mishap => .ended (.raised w r mishap)

/-- Do the turn that has waited, and take turns up to the next one that has to wait. -/
def resume (network : Network) (w : World) (r : Run) : Progress :=
  match advance network w r with
  | some (w, r) => takeStretch network (r.turnsLeft + 1) w r
  | none => .ended (.stalled w r)

/-- Go on with a run, whether it has started or not. -/
def goOn (network : Network) (w : World) (r : Run) : Progress :=
  if r.state = .pending then setOut network w r else resume network w r

/-- The number of times that a run or one of its calls goes on, at most. -/
def wakings (r : Run) : Nat :=
  (r.chain.steps.drop r.next).foldl (fun total step => total + 2 * step.sinks.length)
    (r.turnsLeft + 2)

/-- Have all calls of a run ended? -/
def isDelivered (r : Run) : Bool := r.calls.all fun call => call.outcome?.isSome

end Run

/-- Whose a run is: it has a number in the loop, or it is the caller's own. -/
inductive RunOwner where
  | caller
  | numbered (number : Nat)

/-- Somebody who goes on in the event loop: the owner of a run, or one of its calls of
sinks. -/
inductive Party where
  | owner (of : RunOwner)
  | call (of : RunOwner) (position : Nat)

/-- The caller. -/
def Party.caller : Party := .owner .caller

/-- The run of a number. -/
def Party.run (number : Nat) : Party := .owner (.numbered number)

/-- An event loop and the runs that have not ended in it. -/
structure EventLoop where
  agenda : Agenda Party := {}
  /-- The runs by number; what keeps one from starting shows when it is its turn. -/
  runs : Assoc Nat (Except Failure Run) := []
  /-- The run of the caller's own that goes on beside the others. -/
  own : Option Run := none
  /-- The number of runs that there have been. -/
  count : Nat := 0
  /-- The runs that the caller waits for. -/
  awaited : List Nat := []
  /-- What came of them. -/
  outcomes : Assoc Nat (Except Failure RunResult) := []

namespace EventLoop

/-- Is there no run in the loop? -/
def isIdle (l : EventLoop) : Bool := l.runs.isEmpty

/-- The number of times that somebody goes on, at most, before the loop is idle. -/
def turnsLeft (l : EventLoop) : Nat :=
  l.runs.foldl (fun turns entry =>
    turns + match entry.2 with
      | .ok r => r.wakings
      | .error _ => 1) ((l.own.map Run.wakings).getD 0 + 1)

/-- A run that is in the loop. -/
def run? (l : EventLoop) : RunOwner → Option Run
  | .caller => l.own
  | .numbered n => (l.runs.find? n).bind Except.toOption

/-- The loop with a run as it is now. -/
def put (l : EventLoop) (of : RunOwner) (r : Run) : EventLoop :=
  match of with
  | .caller => { l with own := some r }
  | .numbered n => { l with runs := l.runs.put n (.ok r) }

/-- The loop with a run that waits. -/
def await (l : EventLoop) (of : RunOwner) (r : Run) (wait : Wait) : EventLoop :=
  { l.put of r with agenda := l.agenda.add (.owner of) wait }

/-- The loop with a run that calls several sinks, each in turns of its own. -/
def deliver (l : EventLoop) (of : RunOwner) (r : Run) : EventLoop :=
  { l.put of r with
    agenda := (List.range r.calls.length).foldl (fun agenda position =>
      agenda.add (.call of position) [.turn]) l.agenda }

/-- A call of a sink goes on.  After the last call of a run the run has to be told. -/
def callOn (network : Network) (w : World) (l : EventLoop) (of : RunOwner) (position : Nat) :
    World × EventLoop :=
  match l.run? of with
  | none => (w, l)
  | some r =>
    match r.nextSinks[position]?, r.top?, r.calls[position]? with
    | some id, some value, some call =>
      let value := value.forward
      let wait := if call matches .due then w.sinkWait network id value r.timeout else []
      match wait with
      | hop :: rest =>
        let r := { r with calls := r.calls.set position .underway }
        (w, { l.put of r with agenda := l.agenda.add (.call of position) (hop :: rest) })
      | [] =>
        match w.callSink network r.location id value r.timeout with
        | (none, w) => (w, l)
        | (some outcome, w) =>
          let r := { r with calls := r.calls.set position (.ended outcome) }
          (w, if r.isDelivered then l.await of r [.turn, .turn] else l.put of r)
    | _, _, _ => (w, l)

/-- Tell the caller what came of a run.  The caller comes back when one has failed or all have
ended, and does not hear of the others. -/
def tell (l : EventLoop) (number : Nat) (outcome : Except Failure RunResult) : EventLoop :=
  if l.awaited.contains number then
    let l := { l with outcomes := l.outcomes.put number outcome }
    let complete := match outcome with
      | .ok _ => l.awaited.all fun n => l.outcomes.has n
      | .error _ => true
    if complete then { l with awaited := [], agenda := l.agenda.add .caller [.turn, .turn] } else l
  else l

/-- The loop after a run has come some way, and the world. -/
def settle (l : EventLoop) (number : Nat) : Run.Progress → World × EventLoop
  | .waiting w r wait => (w, l.await (.numbered number) r wait)
  | .delivering w r => (w, l.deliver (.numbered number) r)
  | .ended ending =>
    let l := { l with runs := l.runs.erase number }
    match ending with
    | .returned w r => (w, l.tell number (.ok r.result))
    | .raised w _ mishap => (w, l.tell number (.error (.mishap mishap)))
    | .stalled w _ => (w, l)

/-- A run goes on. -/
def goOn (network : Network) (w : World) (l : EventLoop) (number : Nat) : World × EventLoop :=
  match l.runs.find? number with
  | some (.ok r) => l.settle number (r.goOn network w)
  | some (.error failure) =>
    (w, { l with runs := l.runs.erase number }.tell number (.error failure))
  | none => (w, l)

/-- Let the others go on until it is the caller's turn; is it ever? -/
def untilCaller (network : Network) : Nat → World → EventLoop → Bool × World × EventLoop
  | 0, w, l => (false, w, l)
  | turns + 1, w, l =>
    match l.agenda.next? with
    | none => (false, w, l)
    | some (.owner .caller, agenda) => (true, w, { l with agenda })
    | some (.owner (.numbered number), agenda) =>
      let (w, l) := { l with agenda }.goOn network w number
      untilCaller network turns w l
    | some (.call of position, agenda) =>
      let (w, l) := { l with agenda }.callOn network w of position
      untilCaller network turns w l

/-- Let the others go on while the caller waits; does it come back? -/
def passTime (network : Network) (w : World) (l : EventLoop) (wait : Wait) :
    Bool × World × EventLoop :=
  untilCaller network l.turnsLeft w { l with agenda := l.agenda.add .caller wait }

/-- Go on with a run of the caller's own while others go on beside it. -/
def finish (network : Network) : Nat → EventLoop → Run.Progress → Run.End × EventLoop
  | _, l, .ended ending => (ending, { l with own := none })
  | 0, l, .waiting w r _ | 0, l, .delivering w r => (.stalled w r, { l with own := none })
  | turns + 1, l, .waiting w r wait => goOnWith turns r w (l.await .caller r wait)
  | turns + 1, l, .delivering w r => goOnWith turns r w (l.deliver .caller r)
where
  /-- Go on when it is the caller's turn. -/
  goOnWith (turns : Nat) (r : Run) (w : World) (l : EventLoop) : Run.End × EventLoop :=
    match untilCaller network l.turnsLeft w l with
    | (true, w, l) => finish network turns l ((l.own.getD r).resume network w)
    | (false, w, l) => (.stalled w r, { l with own := none })

/-- Run a chain from start to end while others go on beside it. -/
def run (network : Network) (w : World) (l : EventLoop) (r : Run) : Run.End × EventLoop :=
  if l.isIdle then (r.run network w, l)
  else finish network (r.turnsLeft + 1) l (r.setOut network w)

/-- The loop with more runs in it, for which the caller waits. -/
def gather (l : EventLoop) (runs : List (Except Failure Run)) : EventLoop :=
  let numbers := List.range' l.count runs.length
  { l with
    agenda := numbers.foldl (fun agenda n => agenda.add (.run n) [.turn]) l.agenda
    runs := l.runs ++ numbers.zip runs
    count := l.count + runs.length
    awaited := numbers
    outcomes := [] }

/-- Start runs together and wait for them: what came of them, in order, or why one has failed.
Without either, one of them never ends. -/
def runTogether (network : Network) (w : World) (l : EventLoop)
    (runs : List (Except Failure Run)) :
    Except (Option Failure) (List RunResult) × World × EventLoop :=
  if runs.isEmpty then (.ok [], w, l)
  else
    let begun := l.gather runs
    let (back, w, l) := untilCaller network begun.turnsLeft w begun
    let results := if back then
        ((begun.awaited.filterMap l.outcomes.find?).mapM id).mapError some
      else .error none
    (results, w, { l with awaited := [], outcomes := [] })

end EventLoop

end TaintFlow
