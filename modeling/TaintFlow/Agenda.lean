import TaintFlow.Wait

/-!
# The agenda of an event loop

Those who wait in an event loop go on in rounds.  A round is for those who were
ready when it began, in the order in which they became so; whoever becomes ready
in it has to wait for the next.  Timers that are due come after the others.
When nobody is ready the threads end, and then the clock goes on to the next
timer.
-/

namespace TaintFlow

open Number

/-- Those who wait, each with what is left to wait for once this has come. -/
structure Agenda (α : Type) where
  clock : Binary64 := .zero false
  /-- Those who are left of the present round. -/
  round : List (α × Wait) := []
  /-- Those who come in the next round. -/
  coming : List (α × Wait) := []
  threads : List (α × Wait) := []
  /-- Those who wait for a moment, the earliest first. -/
  timers : List (Binary64 × α × Wait) := []

namespace Agenda

variable {α : Type}

/-- Put a timer in its place, after those of the same moment. -/
def insertTimer (moment : Binary64) (entry : α × Wait) :
    List (Binary64 × α × Wait) → List (Binary64 × α × Wait)
  | [] => [(moment, entry)]
  | (other, timed) :: rest =>
    if moment.less other then (moment, entry) :: (other, timed) :: rest
    else (other, timed) :: insertTimer moment entry rest

/-- The moment at which a timer goes off that is set now; the shortest are due at once. -/
def momentAfter (a : Agenda α) (delay : Binary64) : Binary64 :=
  if Timeout.turnTime.less delay then a.clock.add delay else a.clock

/-- Let somebody wait.  Who waits for nothing goes on next. -/
def add (a : Agenda α) (who : α) : Wait → Agenda α
  | [] => { a with round := (who, []) :: a.round }
  | .turn :: rest => { a with coming := a.coming ++ [(who, rest)] }
  | .thread :: rest => { a with threads := a.threads ++ [(who, rest)] }
  | .timer delay :: rest =>
    { a with timers := insertTimer (a.momentAfter delay) (who, rest) a.timers }

/-- Has a moment come? -/
def isDue (a : Agenda α) (timer : Binary64 × α × Wait) : Bool := !a.clock.less timer.1

/-- The round of those who are ready, the timers that are due last. -/
def ready (a : Agenda α) : Agenda α :=
  { a with
    round := a.coming ++ (a.timers.takeWhile a.isDue).map Prod.snd
    coming := []
    timers := a.timers.dropWhile a.isDue }

/-- The round of the threads that end. -/
def endThreads (a : Agenda α) : Agenda α := { a with round := a.threads, threads := [] }

/-- The clock at the moment of the earliest timer, unless that never comes. -/
def sleep (a : Agenda α) : Agenda α :=
  match a.timers with
  | (moment, _) :: _ => if moment.isFinite then { a with clock := moment } else a
  | [] => a

/-- The next round. -/
def nextRound (a : Agenda α) : Agenda α :=
  let begun := a.ready
  if !begun.round.isEmpty then begun
  else if !begun.threads.isEmpty then begun.endThreads
  else begun.sleep.ready

/-- The number of things that are waited for. -/
def size (a : Agenda α) : Nat :=
  let hops (entries : List (α × Wait)) : Nat :=
    entries.foldl (fun total entry => total + entry.2.length + 1) 0
  hops a.round + hops a.coming + hops a.threads + hops (a.timers.map Prod.snd)

/-- Who goes on next, within some steps. -/
def nextWithin : Nat → Agenda α → Option (α × Agenda α)
  | 0, _ => none
  | steps + 1, a =>
    match a.round with
    | (who, []) :: rest => some (who, { a with round := rest })
    | (who, wait) :: rest => nextWithin steps (add { a with round := rest } who wait)
    | [] =>
      let begun := a.nextRound
      if begun.round.isEmpty then none else nextWithin steps begun

/-- Who goes on next; each thing that is waited for takes a step and begins a round at most. -/
def next? (a : Agenda α) : Option (α × Agenda α) := nextWithin (2 * a.size + 2) a

/-- Who waits for nothing goes on next, and the others wait on. -/
theorem next?_add_nil (a : Agenda α) (who : α) : (a.add who []).next? = some (who, a) := rfl

end Agenda

end TaintFlow
