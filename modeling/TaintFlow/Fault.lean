import TaintFlow.Value
import TaintFlow.Mishap
import TaintFlow.Wait
import TaintFlow.SinkCategory
import TaintFlow.Store.Basic
import TaintFlow.Chain.StepKind
import TaintFlow.Data.Issue

/-!
# Faults

The library's own errors.  A fault has a cause, from which its class, its text
and the component that it blames follow, and the index of the step at which it
happened, if that is known.  Faults of the modelled flow itself are kept apart
from those of a source, a sink or an operator.
-/

namespace TaintFlow

/-- The classes of faults. -/
inductive FaultClass where
  | general | sourceUnavailable | sinkRejected | relayFailed | taintLoss | storeRead | notFound
  | cleared | chainBroken | definition | unknownComponent | duplicate
  deriving DecidableEq

namespace FaultClass

/-- The short name of a class, as records hold it. -/
def text : FaultClass → String
  | general => "error"
  | sourceUnavailable => "source_unavailable"
  | sinkRejected => "sink_rejected"
  | relayFailed => "relay_failed"
  | taintLoss => "taint_loss"
  | storeRead => "store_read"
  | notFound => "not_found"
  | cleared => "cleared"
  | chainBroken => "chain_broken"
  | definition => "chain_definition"
  | unknownComponent => "unknown_component"
  | duplicate => "duplicate_registration"

/-- The full name of a class. -/
def name : FaultClass → String
  | general => "TaintChainError"
  | sourceUnavailable => "SourceUnavailable"
  | sinkRejected => "SinkRejected"
  | relayFailed => "RelayFailed"
  | taintLoss => "TaintLossError"
  | storeRead => "StoreReadError"
  | notFound => "NotFound"
  | cleared => "Cleared"
  | chainBroken => "ChainBroken"
  | definition => "ChainDefinitionError"
  | unknownComponent => "UnknownComponent"
  | duplicate => "DuplicateRegistration"

instance : Enumeration FaultClass where
  all := [general, sourceUnavailable, sinkRejected, relayFailed, taintLoss, storeRead, notFound,
    cleared, chainBroken, definition, unknownComponent, duplicate]
  name := name
  mem_all a := by cases a <;> decide
  name_injective a b := by cases a <;> cases b <;> simp [name]

/-- Is a fault of this class one of the modelled flow, not of a component? -/
def breaks : FaultClass → Bool
  | taintLoss | storeRead | notFound | cleared | chainBroken => true
  | _ => false

end FaultClass

/-- The roles that a registered component has. -/
inductive Role where
  | source | sink | operator | chain
  deriving DecidableEq

/-- What a role is called in messages. -/
def Role.text : Role → String
  | source => "source"
  | sink => "sink"
  | operator => "relay operator"
  | chain => "chain"

/-- What is wrong with the structure of a chain. -/
inductive Flaw where
  | startsWith (kind : StepKind)
  | endsWith (kind : StepKind)
  | unknown (role : Role) (id : String)
  | mergeInputs (operator : String) (count : Nat)
  | relayInputs (operator : String) (needed depth : Nat)
  | noValue (kind : StepKind)
  | sinkNotLast
  deriving DecidableEq

/-- The text of a flaw. -/
def Flaw.text : Flaw → String
  | startsWith kind => s!"first step must produce a value, got {Text.quoted kind.text}"
  | endsWith kind => s!"last step must be a sink or fanout, got {Text.quoted kind.text}"
  | unknown role id => s!"unknown {role.text} {Text.quoted id}"
  | mergeInputs operator count =>
    s!"merge operator {Text.quoted operator} cannot take {count} inputs"
  | relayInputs operator needed depth =>
    s!"relay {Text.quoted operator} needs {needed} active value(s), has {depth}"
  | noValue kind => s!"{kind.text} step has no active value"
  | sinkNotLast => "sink must be the last step"

/-- What is wrong with a catalog. -/
inductive CatalogFlaw where
  | unreadable
  | notMapping
  | invalid (what : Invalid)
  | repeated (id : String)
  deriving DecidableEq

/-- The text of what is wrong with a catalog. -/
def CatalogFlaw.text : CatalogFlaw → String
  | unreadable => "invalid YAML"
  | notMapping => "catalog must contain a top-level mapping"
  | invalid what => what.message
  | repeated id => s!"duplicate chain id {Text.quoted id}"

/-- Why something failed. -/
inductive Cause where
  | unknown (role : Role) (id : String)
  | duplicate (role : Role) (id : String)
  | sourceFailed (id : String) (mishap : Mishap)
  | sourceTimedOut (id : String) (timeout : Option Timeout)
  | sinkFailed (id : String) (mishap : Mishap) (labels : LabelSet) (hops : Nat)
  | sinkTimedOut (id : String) (timeout : Option Timeout) (labels : LabelSet) (hops : Nat)
  | inputCount (operator : String) (arity : Option Nat) (count : Nat)
  | operatorRaised (operator : String) (mishap : Mishap)
  | operatorRejected (operator : String) (what : Invalid)
  | notAValue (operator kind : String)
  | notResumed (operator : String) (timeout : Number.Binary64)
  | shortStack (operator : String) (needed held : Nat)
  | noActiveValue (kind : StepKind)
  | labelsLost (component : String) (missing : LabelSet) (at_ : Option Int)
  | notFound (scope : Scope) (partition key : String)
  | cleared (scope : Scope) (partition key : String)
  | noSinkReached
  | flawed (chain : String) (step : Option Nat) (flaw : Flaw)
  | invalidChain (given : Payload) (what : Invalid)
  | catalog (origin : String) (flaw : CatalogFlaw)
  /-- Raised by an operator of its own accord. -/
  | reported (kind : FaultClass) (message : String) (component : Option String)
      (missing : LabelSet)
  deriving DecidableEq

namespace Cause

/-- The class of the faults of a cause. -/
def kind : Cause → FaultClass
  | unknown .. => .unknownComponent
  | duplicate .. => .duplicate
  | sourceFailed .. | sourceTimedOut .. => .sourceUnavailable
  | sinkFailed .. | sinkTimedOut .. => .sinkRejected
  | inputCount .. | operatorRaised .. | operatorRejected .. | notAValue .. | notResumed ..
  | shortStack .. | noActiveValue .. => .relayFailed
  | labelsLost .. => .taintLoss
  | notFound .. => .notFound
  | cleared .. => .cleared
  | noSinkReached => .chainBroken
  | flawed .. | invalidChain .. | catalog .. => .definition
  | reported kind .. => kind

/-- The index of a step in a message, if it is known. -/
def stepNote (before after : String) : Option Int → String
  | some step => before ++ s!"step {step}" ++ after
  | none => ""

/-- The text of a cause. -/
def message : Cause → String
  | unknown role id => s!"unknown {role.text}: {id}"
  | duplicate .chain id => s!"chain already defined: {id}"
  | duplicate role id => s!"{role.text} already registered: {id}"
  | sourceFailed id m => s!"source {Text.quoted id} failed: {m.kind}: {m.text}"
  | sourceTimedOut id timeout =>
    s!"source {Text.quoted id} timed out after {Timeout.shownOption timeout}s"
  | sinkFailed id m _ _ => s!"sink {Text.quoted id} failed: {m.kind}: {m.text}"
  | sinkTimedOut id timeout _ _ =>
    s!"sink {Text.quoted id} timed out after {Timeout.shownOption timeout}s"
  | inputCount operator arity count =>
    let wanted := match arity with
      | some n => toString n
      | none => "one or more"
    s!"{Text.quoted operator} expects {wanted} input(s), got {count}"
  | operatorRaised operator m => s!"{Text.quoted operator} raised {m.kind}: {m.text}"
  | operatorRejected operator what =>
    s!"{Text.quoted operator} raised {Invalid.name}: {what.message}"
  | notAValue operator kind => s!"{Text.quoted operator} returned {kind}, expected TaintedValue"
  | notResumed operator timeout => s!"{Text.quoted operator} did not resume within {timeout.text}s"
  | shortStack operator needed held =>
    s!"{Text.quoted operator} needs {needed} active value(s), stack holds {held}"
  | noActiveValue kind => s!"{kind.text} step has no active value"
  | labelsLost component missing step =>
    s!"{Text.quoted component} dropped {missing.size} label(s)" ++ stepNote " at " "" step ++
      ": " ++ commaSeparated missing.texts
  | notFound scope partition key => s!"no value stored at {scope.text}/{partition}/{key}"
  | cleared scope partition key => s!"value at {scope.text}/{partition}/{key} was cleared"
  | noSinkReached => "chain ended without reaching a sink"
  | flawed chain step flaw =>
    s!"chain {Text.quoted chain}" ++ stepNote " (" ")" (step.map Int.ofNat) ++ s!": {flaw.text}"
  | invalidChain given what => s!"chain {given.shown}: {what.message}"
  | catalog origin flaw => s!"{origin}: {flaw.text}"
  | reported _ message _ _ => message

/-- The component that a cause blames. -/
def component : Cause → Option String
  | unknown _ id | duplicate _ id => some id
  | sourceFailed id _ | sourceTimedOut id _ => some id
  | sinkFailed id .. | sinkTimedOut id .. => some id
  | inputCount operator .. | operatorRaised operator _ | operatorRejected operator _
  | notAValue operator _
  | notResumed operator _ | shortStack operator .. => some operator
  | labelsLost component .. => some component
  | notFound scope _ key | cleared scope _ key => some s!"{scope.text}:{key}"
  | noActiveValue _ | noSinkReached => none
  | flawed chain .. => some chain
  | invalidChain given _ => some given.plain
  | catalog _ (.repeated id) => some id
  | catalog .. => none
  | reported _ _ component _ => component

/-- The labels that a cause says are missing. -/
def missing : Cause → LabelSet
  | labelsLost _ missing _ => missing
  | reported .taintLoss _ _ missing => missing
  | _ => ∅

/-- The labels and the distance that a rejecting sink was shown. -/
def observed : Cause → LabelSet × Nat
  | sinkFailed _ _ labels hops | sinkTimedOut _ _ labels hops => (labels, hops)
  | _ => (∅, 0)

/-- The validation issues behind a cause. -/
def issues? : Cause → Option (List Issue)
  | operatorRejected _ what | invalidChain _ what | catalog _ (.invalid what) => some what.issues
  | _ => none

end Cause

/-- An error of the library: its cause, and the step at which it happened. -/
structure Fault where
  cause : Cause
  step : Option Int := none
  deriving DecidableEq

namespace Fault

/-- The class of a fault. -/
def kind (f : Fault) : FaultClass := f.cause.kind

/-- The text of a fault. -/
def message (f : Fault) : String := f.cause.message

/-- The same fault, at a step if it has none yet. -/
def atStep (f : Fault) (step : Option Int) : Fault :=
  { f with step := f.step.or step }

/-- A fault of a chain's structure, at a step or of the chain as a whole. -/
def flawed (chain : String) (flaw : Flaw) (step : Option Nat := none) : Fault :=
  ⟨.flawed chain step flaw, step.map Int.ofNat⟩

end Fault

/-- What can come out of calling an operator: a mishap of its own, data that it cannot read, or
one of the library's faults. -/
inductive Trouble where
  | mishap (m : Mishap)
  | invalid (what : Invalid)
  | fault (f : Fault)
  deriving DecidableEq

/-- What an operation of the library can fail with. -/
inductive Failure where
  | fault (f : Fault)
  | mishap (m : Mishap)
  | invalid (what : Invalid)
  deriving DecidableEq

namespace Failure

/-- The name of the kind of a failure. -/
def name : Failure → String
  | fault f => f.kind.name
  | mishap m => m.kind
  | invalid _ => Invalid.name

/-- The text of a failure. -/
def message : Failure → String
  | fault f => f.message
  | mishap m => m.text
  | invalid what => what.message

/-- The failure of a cause. -/
def ofCause (cause : Cause) : Failure := .fault ⟨cause, none⟩

end Failure

end TaintFlow
