import TaintFlow.Fault
import TaintFlow.Store.Basic
import TaintFlow.Wait

/-!
# Relay operators

An operator turns the inputs of a hop into its output.  A lifted operator sees
payloads only, and the engine labels what it returns; any other sees whole
values and is trusted to carry their labels.  An operator may read the store
and may ask for edits of it, and it may take its time.
-/

namespace TaintFlow

/-- The named parameters of an operator. -/
abbrev Params := Assoc String Payload

/-- What comes of calling an operator's function, and what the caller waits for. -/
structure Answer where
  result : Except Trouble Payload
  edits : List Store.Edit := []
  wait : Wait := []

namespace Answer

/-- An answer that is there at once and leaves the store alone. -/
def ofResult (result : Except Mishap Payload) : Answer :=
  { result := result.mapError .mishap }

end Answer

/-- The function of an operator. -/
inductive Action where
  | onPayloads (act : List Payload → Params → Store → Answer)
  | onValues (act : List Value → Params → Store → Answer)

/-- A single input is a positive arity. -/
theorem pos_of_single (n : Nat) (h : some 1 = some n) : 0 < n :=
  Option.some.inj h ▸ Nat.one_pos

/-- A variadic operator has no arity that could fail to be positive. -/
theorem pos_of_variadic (n : Nat) (h : none = some n) : 0 < n := nomatch h

/-- A registered operator.  Without an arity it takes one input or more. -/
structure Operator where
  id : String
  action : Action
  arity : Option Nat := some 1
  arity_pos : ∀ n, arity = some n → 0 < n := by
    first | exact pos_of_single | exact pos_of_variadic
  preserving : Bool := true
  suspends : Bool := false
  description : String := ""

namespace Operator

/-- Does the operator see payloads only? -/
def lifted (operator : Operator) : Bool :=
  match operator.action with
  | .onPayloads _ => true
  | .onValues _ => false

/-- Does the operator take this number of inputs? -/
def accepts (operator : Operator) (count : Nat) : Bool :=
  match operator.arity with
  | none => 1 ≤ count
  | some n => count = n

/-- The number of active values that a step needs at least. -/
def needed (operator : Operator) : Nat := operator.arity.getD 1

/-- Call the function of an operator. -/
def call (operator : Operator) (inputs : List Value) (params : Params) (store : Store) : Answer :=
  match operator.action with
  | .onPayloads act => act (inputs.map Value.payload) params store
  | .onValues act => act inputs params store

/-- Every operator needs a value to work on. -/
theorem needed_pos (operator : Operator) : 0 < operator.needed := by
  unfold needed
  cases h : operator.arity with
  | none => decide
  | some n => exact operator.arity_pos n h

end Operator

/-- The parameters that an operator's function takes beside its inputs. -/
structure Signature where
  name : String
  /-- The name of a single input; an operator that takes several has none. -/
  input : Option String
  options : List String := []
  /-- The option that has no default. -/
  required : Option String := none

namespace Signature

/-- Is every given parameter one that the function takes? -/
def accepts (s : Signature) : Params → Except Mishap Unit
  | [] => .ok ()
  | (key, _) :: rest =>
    if s.input = some key then
      .error (.badType s!"{s.name}() got multiple values for argument '{key}'")
    else if s.options.contains key then s.accepts rest
    else .error (.badType s!"{s.name}() got an unexpected keyword argument '{key}'")

/-- Check the parameters of a call. -/
def check (s : Signature) (params : Params) : Except Mishap Unit := do
  s.accepts params
  match s.required with
  | none => return ()
  | some key =>
    if params.has key then return ()
    else throw (.badType
      s!"{s.name}() missing 1 required keyword-only argument: '{key}'")

end Signature

end TaintFlow
