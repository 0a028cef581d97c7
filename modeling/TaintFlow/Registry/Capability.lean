import TaintFlow.Payload.Equality
import TaintFlow.Wait

/-!
# Capabilities

A capability is what a source gets its data from and what a sink hands its data
to.  The harness only calls it.  Its reply may depend on the calls it has had
before, it may take its time, and it may never reply; then only a timeout ends
the call.  A call runs on a thread, unless the capability shares the event loop;
then it may give up its turn before it begins.
-/

namespace TaintFlow

/-- What a capability does with a call, and what it waits for before it is done. -/
inductive Reply where
  | returns (payload : Payload) (after : Wait := [])
  | raises (mishap : Mishap) (after : Wait := [])
  | hangs

/-- Something that can be called, given the arguments of all calls before, oldest first. -/
structure Capability where
  respond : List Payload → Payload → Reply
  /-- The call runs in the event loop and gives up its turn before it begins. -/
  yields : Bool := false
  /-- The call runs in the event loop and, unless it gives up its turn, begins at once. -/
  direct : Bool := false

/-- What is registered as a capability: a function, a component made for the role, or something
that is neither. -/
inductive Provider where
  | function (capability : Capability)
  | component (capability : Capability)
  | unusable

/-- The capability of a component; a plain function is none. -/
def Provider.component? : Provider → Option Capability
  | component capability => some capability
  | _ => none

/-- The provider with a function adapted to the role. -/
def Provider.adapted : Provider → Provider
  | function capability => component capability
  | other => other

/-- How a call ended. -/
inductive CallEnd where
  | returned (payload : Payload)
  | raised (mishap : Mishap)
  | timedOut
  /-- Nothing ends the call. -/
  | pending

namespace Capability

/-- What a caller waits for if nothing bounds the call. -/
def pace (capability : Capability) (history : List Payload) (argument : Payload) : Wait :=
  match capability.respond history argument with
  | .hangs => Wait.never
  | .returns _ after | .raises _ after =>
    if capability.yields then .turn :: after
    else if capability.direct then after
    else .thread :: (after ++ [.turn])

/-- How soon the timeout of a call takes effect, if there is one. -/
def reach (timeout : Option Timeout) : Except Mishap (Option Timeout.Reach) :=
  match timeout with
  | none => .ok none
  | some timeout => timeout.reach.map some

/-- What a caller waits for. -/
def wait (capability : Capability) (history : List Payload) (argument : Payload)
    (timeout : Option Timeout) : Wait :=
  match reach timeout with
  | .ok limit => (capability.pace history argument).within limit
  | .error _ => []

/-- A mishap of a call as it reaches the caller. -/
def surfaced (capability : Capability) (mishap : Mishap) : Mishap :=
  if capability.yields || capability.direct then mishap.outOfTurn else mishap.outOfThread

/-- How a call ends under a timeout. -/
def callEnd (capability : Capability) (history : List Payload) (argument : Payload)
    (timeout : Option Timeout) : CallEnd :=
  match reach timeout with
  | .error mishap => .raised mishap
  | .ok limit =>
    if limit.any (capability.pace history argument).isEndedBy then .timedOut
    else if (capability.pace history argument).isEndless then .pending
    else
      match capability.respond history argument with
      | .returns payload _ => .returned payload
      | .raises mishap _ =>
        if mishap.isTimeout then .timedOut else .raised (capability.surfaced mishap)
      | .hangs => .pending

/-- The calls of the capability after this one.  A call that gives up its turn first does not
begin if there is no time at all. -/
def historyAfter (capability : Capability) (history : List Payload) (argument : Payload)
    (timeout : Option Timeout) : List Payload :=
  match reach timeout with
  | .error _ => history
  | .ok limit =>
    if capability.yields && limit = some .atOnce then history else history ++ [argument]

end Capability

/-- A source that reads a field of the context, or falls back on a default. -/
def contextField (field : String) (default_ : Payload) : Capability where
  respond _ context :=
    match context with
    | .map entries => .returns ((Payload.Entries.text? field entries).getD default_)
    | _ => .returns default_

/-- A sink that records what it gets; it may fail every call. -/
def recording (name : String) (failure : Option String) : Capability where
  respond _ received :=
    match failure with
    | some text => .raises ⟨"RuntimeError", text⟩
    | none => .returns (.map [(.text "sink", .text name), (.text "received", received)])

end TaintFlow
