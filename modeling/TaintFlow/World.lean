import TaintFlow.Metric
import TaintFlow.Notice
import TaintFlow.Relay.Engine

/-!
# What runs share

The registries are fixed while chains run.  Everything that runs change
together is a `World`: the store, the operators that were caught losing labels,
the counters, the calls that each capability has had, and what was said.  What
is done to it is done once the caller has waited for it.
-/

namespace TaintFlow

/-- The registered components and the settings that runs share. -/
structure Network where
  sources : Sources := []
  sinks : Sinks := []
  engine : Engine
  /-- How long a call may take if nothing else says so. -/
  usualTimeout : Option Number.Binary64 := none
  /-- A value that a run reads back is checked against the labels that it wrote. -/
  verifyLoads : Bool := true

/-- A capability, by the component that owns it. -/
inductive Owner where
  | source (id : String)
  | sink (id : String)
  deriving DecidableEq

/-- What runs change together. -/
structure World where
  store : Store := {}
  flagged : SortedSet String := ∅
  metrics : Metrics := []
  calls : Assoc Owner (List Payload) := []
  /-- Notices, latest first. -/
  notices : List LoggedNotice := []

namespace World

instance : Inhabited World := ⟨{}⟩

/-- Where in a run something happens. -/
structure Location where
  chain : Option String := none
  step : Option Nat := none

/-- Say something. -/
def say (w : World) (at_ : Location) (notice : Notice) : World :=
  { w with notices := ⟨notice, at_.chain, at_.step⟩ :: w.notices }

/-- Count something. -/
def count (w : World) (metric : Metric) : World := { w with metrics := w.metrics.bump metric }

/-- The calls that a capability has had, oldest first. -/
def callsOf (w : World) (owner : Owner) : List Payload := (w.calls.find? owner).getD []

/-- The notice of an edit of the store. -/
def editNotice (store : Store) : Store.Edit → Option Notice
  | .put p key value writtenAt => some (.stored p key value.labels.size writtenAt)
  | .clearAll p =>
    if (store.slots p).isEmpty then none else some (.scopeCleared p (store.liveCount p))
  | _ => none

/-- Edit the store. -/
def edit (w : World) (at_ : Location) (e : Store.Edit) : World :=
  let w := match editNotice w.store e with
    | some notice => w.say at_ notice
    | none => w
  { w with store := w.store.apply e }

/-- Carry out several edits of the store. -/
def editAll (w : World) (at_ : Location) (edits : List Store.Edit) : World :=
  edits.foldl (fun w e => w.edit at_ e) w

/-- What comes of something that may never end, and the world after it. -/
abbrev Outcome (α : Type) := Option (Except Fault α) × World

/-- Call a capability. -/
def callCapability (w : World) (owner : Owner) (capability : Capability) (argument : Payload)
    (timeout : Option Timeout) : CallEnd × World :=
  let history := w.callsOf owner
  let after := capability.historyAfter history argument timeout
  (capability.callEnd history argument timeout, { w with calls := w.calls.put owner after })

/-- The timeout of a call: the caller's, the component's own, or the usual one. -/
def timeoutOf (network : Network) (given : Option Timeout) (own : Option Number.Binary64) :
    Option Timeout :=
  Timeout.effective [given, own.map .fraction, network.usualTimeout.map .fraction]

/-- What a caller of a source waits for. -/
def sourceWait (w : World) (network : Network) (id : String) (context : Payload)
    (given : Option Timeout) : Wait :=
  match network.sources.get id with
  | .error _ => []
  | .ok s => s.capability.wait (w.callsOf (.source id)) context (timeoutOf network given s.timeout)

/-- Ask a source for a fresh value. -/
def callSource (w : World) (network : Network) (at_ : Location) (id : String) (context : Payload)
    (given : Option Timeout) : Outcome Value :=
  match network.sources.get id with
  | .error fault => (some (.error fault), w)
  | .ok s =>
    let timeout := timeoutOf network given s.timeout
    let (ending, w) := w.callCapability (.source id) s.capability context timeout
    match ending with
    | .pending => (none, w)
    | .timedOut =>
      (some (.error ⟨.sourceTimedOut id timeout, none⟩),
        (w.count (.sourceCalls id .timeout)).say at_ (.sourceTimedOut id timeout))
    | .raised mishap =>
      (some (.error ⟨.sourceFailed id mishap, none⟩),
        (w.count (.sourceCalls id .error)).say at_ (.sourceFailed id mishap.text))
    | .returned payload =>
      (some (.ok ⟨payload, .singleton s.label, 0⟩), w.count (.sourceCalls id .fine))

/-- What a caller of a sink waits for. -/
def sinkWait (w : World) (network : Network) (id : String) (value : Value)
    (given : Option Timeout) : Wait :=
  match network.sinks.get id with
  | .error _ => []
  | .ok s =>
    s.capability.wait (w.callsOf (.sink id)) value.payload (timeoutOf network given s.timeout)

/-- Hand a value to a sink. -/
def callSink (w : World) (network : Network) (at_ : Location) (id : String) (value : Value)
    (given : Option Timeout) : Outcome SinkResult :=
  match network.sinks.get id with
  | .error fault => (some (.error fault), w)
  | .ok s =>
    let timeout := timeoutOf network given s.timeout
    let (ending, w) := w.callCapability (.sink id) s.capability value.payload timeout
    match ending with
    | .pending => (none, w)
    | .timedOut =>
      (some (.error ⟨.sinkTimedOut id timeout value.labels value.hops, none⟩),
        (w.count (.sinkCalls id .timeout)).say at_ (.sinkTimedOut id timeout))
    | .raised mishap =>
      (some (.error ⟨.sinkFailed id mishap value.labels value.hops, none⟩),
        (w.count (.sinkCalls id .error)).say at_ (.sinkFailed id mishap.text))
    | .returned payload =>
      (some (.ok { sink := id, accepted := true, raw := payload, labels := value.labels,
                   hops := value.hops }), w.count (.sinkCalls id .fine))

/-- What the engine has to say about a fault, beside raising it. -/
def noteFault (w : World) (at_ : Location) (fault : Fault) : World :=
  match fault.cause with
  | .notResumed operator seconds => w.say at_ (.notResumed operator seconds)
  | .labelsLost operator _ step =>
    ({ w with flagged := w.flagged.insert operator }.count (.taintLoss operator)).say at_
      (.taintLost operator step)
  | _ => w

/-- What a caller of an operator waits for. -/
def operatorWait (w : World) (network : Network) (id : String) (inputs : List Value)
    (params : Params) (step : Option Int) : Wait :=
  (network.engine.apply id inputs params step w.store).wait

/-- Apply an operator. -/
def applyOperator (w : World) (network : Network) (at_ : Location) (id : String)
    (inputs : List Value) (params : Params) (step : Option Int) : Outcome Value :=
  let applied := network.engine.apply id inputs params step w.store
  let w := w.editAll at_ applied.edits
  match applied.outcome with
  | some (.error fault) => (some (.error fault), w.noteFault at_ fault)
  | other => (other, w)

end World

end TaintFlow
