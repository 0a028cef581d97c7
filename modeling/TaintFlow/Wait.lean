import TaintFlow.Mishap
import TaintFlow.Number.Notation
import TaintFlow.Number.Binary64

/-!
# Waits and timeouts

A caller may have to wait before it goes on: for a turn of the event loop, for a
timer, for a thread, or for several of these, one after the other.  A timeout
bounds a wait, and the caller goes on when the wait or the timeout ends it.
-/

namespace TaintFlow

/-!
## Timeouts

A timeout is a number of seconds, whole or not; how it was given shows in
messages.  The first timeout that is given at all is the one that counts.

A timeout that is so short that it has run out by the time it is set ends
whatever it bounds.  One that is shorter than any turn of the event loop leaves
time for a single turn, and so does one that is not a number.
-/

open Number

/-- A number of seconds. -/
inductive Timeout where
  | whole (n : Int)
  | fraction (x : Binary64)
  deriving DecidableEq

namespace Timeout

/-- The text of a number of seconds. -/
def text : Timeout → String
  | .whole n => toString n
  | .fraction x => x.text

/-- How soon a timeout takes effect. -/
inductive Reach where
  /-- Before anything else happens. -/
  | atOnce
  /-- When the others have had one turn. -/
  | oneTurn
  | after (seconds : Binary64)
  deriving DecidableEq

/-- The seconds that pass while a timeout is set. -/
def settingTime : Binary64 := .ofDecimal false 1 (-6)

/-- The seconds that a turn takes at least. -/
def turnTime : Binary64 := .ofDecimal false 1 (-5)

/-- How soon a timeout of some seconds takes effect. -/
def Reach.ofSeconds (x : Binary64) : Reach :=
  if turnTime.less x then .after x
  else if settingTime.less x || !x.same x then .oneTurn
  else .atOnce

/-- How soon a timeout takes effect; a whole number has to be in the range of the doubles. -/
def reach : Timeout → Except Mishap Reach
  | .whole n =>
    match Binary64.ofInt? n with
    | some x => .ok (.ofSeconds x)
    | none => .error (.tooLarge "int too large to convert to float")
  | .fraction x => .ok (.ofSeconds x)

/-- The text of a timeout that may not have been given. -/
def shownOption : Option Timeout → String
  | some timeout => timeout.text
  | none => "None"

/-- The first of several values that is given. -/
def effective {α : Type} : List (Option α) → Option α
  | [] => none
  | some a :: _ => some a
  | none :: rest => effective rest

/-- A given candidate counts before all that follow it. -/
theorem effective_cons {α : Type} (a : Option α) (rest : List (Option α)) :
    effective (a :: rest) = a.or (effective rest) := by
  cases a <;> rfl

end Timeout

/-! ## Waits -/

/-- One thing that is waited for. -/
inductive Hop where
  /-- Whoever else is ready has a turn first. -/
  | turn
  | timer (delay : Binary64)
  | thread
  deriving DecidableEq

/-- What is waited for, one thing after the other.  Who waits for nothing goes on at once. -/
abbrev Wait := List Hop

namespace Wait

/-- The wait for something that never comes. -/
def never : Wait := [.timer (.infinite false)]

/-- The seconds that the timers of a wait take. -/
def delay : Wait → Binary64
  | [] => .zero false
  | .timer seconds :: rest => seconds.add (delay rest)
  | _ :: rest => delay rest

/-- Does a wait never end by itself? -/
def isEndless (wait : Wait) : Bool := !wait.delay.isFinite

/-- Does a timeout end a wait?  At a tie the timeout comes first. -/
def isEndedBy (wait : Wait) : Timeout.Reach → Bool
  | .atOnce => !wait.isEmpty
  | .oneTurn => !wait.isEmpty && wait != [.turn]
  | .after seconds => !wait.delay.less seconds

/-- What is waited for until a timeout has ended a wait. -/
def untilEnded (wait : Wait) : Timeout.Reach → Wait
  | .atOnce => if wait = [.turn] then [.turn] else [.turn, .turn]
  | .oneTurn => [.timer (.zero false), .turn]
  | .after seconds => [.timer seconds, .turn]

/-- The wait under a limit. -/
def within (wait : Wait) : Option Timeout.Reach → Wait
  | none => wait
  | some reach => if wait.isEndedBy reach then wait.untilEnded reach else wait

/-- The number of threads that are waited for. -/
def threads (wait : Wait) : Nat := wait.count .thread

/-- Does one wait end before another that begins with it? -/
def endsBefore (a b : Wait) : Bool :=
  a.delay.less b.delay ||
    (!b.delay.less a.delay &&
      (a.threads < b.threads || (a.threads = b.threads && a.length < b.length)))

/-- The wait that ends last. -/
def longest (waits : List Wait) : Wait :=
  waits.foldl (fun a b => if a.endsBefore b then b else a) []

end Wait

end TaintFlow
