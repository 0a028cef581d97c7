import TaintFlow.Relay.Wire

/-!
# Operators that cross a boundary

These hand a whole value across a turn of the event loop, a timer, a queue or a
wire, and return what arrives on the other side.  The caller waits for at least
one turn, so a timeout can end the wait.
-/

namespace TaintFlow.Boundary

open Number

/-- The function of an operator that hands one value on, its parameters checked first. -/
def handOver (name : String) (options : List String)
    (act : Value → Params → Except Mishap Answer) : Action :=
  .onValues fun values params _ =>
    let answer := do
      Signature.check ⟨name, some "value", options, none⟩ params
      act (values.headD default) params
    match answer with
    | .ok answer => answer
    | .error mishap => { result := .error (.mishap mishap) }

/-- An operator that returns its value after a number of turns. -/
def afterTurns (id description : String) (turns : Nat) : Operator :=
  { id, description, suspends := true
    action := handOver id [] fun value _ =>
      .ok { result := .ok value.asPayload, wait := List.replicate turns .turn } }

/-- A parameter as a number of seconds to wait. -/
def delayOf : Payload → Except Mishap Binary64
  | .bool b => .ok (Binary64.ofInt (if b then 1 else 0))
  | .int n =>
    match Binary64.ofInt? n with
    | some x => .ok x
    | none => if n < 0 then .ok (Binary64.zero false)
        else .error (.tooLarge "int too large to convert to float")
  | .float x => .ok x
  | other =>
    .error (.badType
      s!"'>' not supported between instances of '{other.fullTypeName}' and 'float'")

/-- The delay of a timer; one that is not above zero is none. -/
def timerOf (delay : Binary64) : Hop := .timer (if delay.isPositive then delay else .zero false)

/-- Resume after a delay. -/
def scheduled : Operator :=
  { id := "scheduled", description := "delayed continuation", suspends := true
    action := handOver "scheduled" ["delay_s"] fun value params => do
      let given := (params.find? "delay_s").getD (.float (Binary64.zero false))
      return { result := .ok value.asPayload, wait := [timerOf (← delayOf given), .turn] } }

/-- Write the value on a wire and read it on the other side. -/
def overWire (value : Value) : Except Mishap Answer := do
  let written ← value.toWire.mapError Unwritable.onWire
  let result := (Checked.named "TaintedValue" (Value.receive written)).mapError .invalid
  return { result := result.map Value.asPayload, wait := [.thread, .turn] }

/-- Hand the value to a worker over a wire. -/
def workerThread : Operator :=
  { id := "worker_thread", description := "serialized thread hand-off", suspends := true
    action := handOver "worker_thread" [] fun value _ => overWire value }

/-- The operators that cross a boundary.  A callback takes a turn of its own before its caller
goes on; a consumer does too, and is waited for twice before it is gone. -/
def operators : List Operator :=
  [afterTurns "deferred" "zero-delay timer" 1,
   afterTurns "callback" "loop callback delivery" 2,
   scheduled,
   afterTurns "message_passing" "queue to consumer task" 4,
   workerThread]

end TaintFlow.Boundary
