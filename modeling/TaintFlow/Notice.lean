import TaintFlow.Chain.Result

/-!
# Notices

What the harness has to say while it works.  Each notice has a level, a text
and the name of the part that it comes from.
-/

namespace TaintFlow

/-- How much a notice matters. -/
inductive Level where
  | debug | info | warning | error
  deriving DecidableEq

/-- The name of a level. -/
def Level.text : Level → String
  | debug => "DEBUG"
  | info => "INFO"
  | warning => "WARNING"
  | error => "ERROR"

/-- The rank of a level. -/
def Level.rank : Level → Nat
  | debug => 10
  | info => 20
  | warning => 30
  | error => 40

/-- Something that the harness has to say. -/
inductive Notice where
  | runStarted (chain : String) (steps : Nat)
  | runFinished (chain : String) (state : RunState) (error : Option ErrorKind)
  | stepCrashed (chain : String) (step : Nat)
  | stepFailed (chain : String) (step : Nat) (kind : FaultClass) (component : Option String)
  | fanoutRejected (chain : String) (step rejected total : Nat)
  | chainBroken (chain : String) (step missing : Nat)
  | sourceTimedOut (id : String) (timeout : Option Timeout)
  | sourceFailed (id : String) (error : String)
  | sinkTimedOut (id : String) (timeout : Option Timeout)
  | sinkFailed (id : String) (error : String)
  | taintLost (operator : String) (step : Option Int)
  | notResumed (operator : String) (timeout : Number.Binary64)
  | stored (partition : Partition) (key : String) (labels : Nat) (hop : Int)
  | scopeCleared (partition : Partition) (dropped : Nat)
  | sessionEnded (session : String) (dropped : Nat)
  deriving DecidableEq

namespace Notice

/-- How much a notice matters. -/
def level : Notice → Level
  | runStarted .. | runFinished .. | sessionEnded .. => .info
  | stepFailed _ _ kind _ => if kind = .taintLoss then .error else .warning
  | stepCrashed .. | taintLost .. => .error
  | stored .. | scopeCleared .. => .debug
  | _ => .warning

/-- The part that a notice comes from. -/
def logger : Notice → String
  | sourceTimedOut .. | sourceFailed .. => "taintchain.registry.sources"
  | sinkTimedOut .. | sinkFailed .. => "taintchain.registry.sinks"
  | taintLost .. => "taintchain.relay.engine"
  | notResumed .. => "taintchain.relay.cross_boundary"
  | stored .. | scopeCleared .. => "taintchain.store.scoped"
  | sessionEnded .. => "taintchain.harness"
  | _ => "taintchain.chains.execution"

/-- A text that may be missing. -/
def orNone : Option String → String
  | some text => text
  | none => "None"

/-- The text of a notice. -/
def text : Notice → String
  | runStarted chain steps => s!"chain_run_started chain={chain} steps={steps}"
  | runFinished chain state error =>
    s!"chain_run_finished chain={chain} state={state.text} " ++
      s!"error={orNone (error.map ErrorKind.text)}"
  | stepCrashed chain step => s!"chain_step_crashed chain={chain} step={step}"
  | stepFailed chain step kind component =>
    s!"chain_step_error chain={chain} step={step} kind={kind.text} component={orNone component}"
  | fanoutRejected chain step rejected total =>
    s!"chain_fanout_rejected chain={chain} step={step} rejected={rejected} of {total}"
  | chainBroken chain step missing => s!"chain_broken chain={chain} step={step} missing={missing}"
  | sourceTimedOut id timeout =>
    s!"source_timeout id={id} timeout_s={Timeout.shownOption timeout}"
  | sourceFailed id error => s!"source_error id={id} error={error}"
  | sinkTimedOut id timeout => s!"sink_timeout id={id} timeout_s={Timeout.shownOption timeout}"
  | sinkFailed id error => s!"sink_error id={id} error={error}"
  | taintLost operator step =>
    s!"relay_taint_loss operator={operator} step={orNone (step.map toString)}"
  | notResumed operator timeout =>
    s!"boundary_relay_timeout operator={operator} timeout_s={timeout.text}"
  | stored partition key labels hop =>
    s!"store_put scope={partition.scope.text} partition={partition.id} key={key} " ++
      s!"labels={labels} hop={hop}"
  | scopeCleared partition dropped =>
    s!"store_clear_scope scope={partition.scope.text} partition={partition.id} dropped={dropped}"
  | sessionEnded session dropped => s!"session_ended session={session} dropped={dropped}"

end Notice

/-- A notice with the run and the step during which it was made. -/
structure LoggedNotice where
  notice : Notice
  chain : Option String := none
  step : Option Nat := none
  deriving DecidableEq

end TaintFlow
