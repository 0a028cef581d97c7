import TaintFlow.Proofs.Relay.Engine
import TaintFlow.Proofs.Relay.Wire

/-!
# The operators that come with the library

These work on payloads: they leave the store alone, what they make of a payload
does not depend on its labels or on how far it has travelled, and their output has
exactly the labels of all inputs, or none if they do not preserve labels.
-/

namespace TaintFlow

/-- A value without what it owes to its way. -/
def Value.bare (v : Value) : Value := .constant v.payload

namespace Operator

/-- An operator that works on payloads. -/
structure IsTransparent (operator : Operator) : Prop where
  edits : ∀ inputs params store, (operator.call inputs params store).edits = []
  carries : ∀ {inputs params store payload labelled},
    operator.accepts inputs.length = true →
      (operator.call inputs params store).result = .ok payload →
        Engine.label operator inputs payload = .ok labelled →
          labelled.labels = (if operator.preserving then Value.unionLabels inputs else ∅) ∧
            ∀ other, ∃ result bare,
              (operator.call (inputs.map Value.bare) params other).result = .ok result ∧
                (operator.call (inputs.map Value.bare) params other).wait =
                  (operator.call inputs params store).wait ∧
                Engine.label operator (inputs.map Value.bare) result = .ok bare ∧
                  bare.payload = labelled.payload

theorem label_of_lifted {operator : Operator} (lifted : operator.lifted = true)
    (inputs : List Value) (payload : Payload) :
    Engine.label operator inputs payload =
      .ok (if operator.preserving then .combine inputs payload else .constant payload) := by
  unfold Engine.label
  rw [lifted, if_pos rfl]

/-- An operator whose function sees only payloads and parameters. -/
theorem IsTransparent.of_onPayloads {operator : Operator}
    {act : List Payload → Params → Except Mishap Payload}
    (action : operator.action = .onPayloads fun payloads params _ => .ofResult (act payloads params)) :
    operator.IsTransparent := by
  have called : ∀ inputs params store,
      operator.call inputs params store = .ofResult (act (inputs.map Value.payload) params) := by
    intro inputs params store
    unfold call
    rw [action]
  have lifted : operator.lifted = true := by
    unfold Operator.lifted
    rw [action]
  have payloads : ∀ inputs : List Value,
      (inputs.map Value.bare).map Value.payload = inputs.map Value.payload := by
    intro inputs
    rw [List.map_map]
    rfl
  constructor
  · intro inputs params store
    rw [called]
    rfl
  · intro inputs params store payload labelled _ answered made
    rw [called] at answered
    rw [label_of_lifted lifted] at made
    obtain rfl := Except.ok.inj made
    refine ⟨?_, fun other => ⟨payload, _, ?_, ?_, label_of_lifted lifted _ _, ?_⟩⟩
    · cases operator.preserving <;> rfl
    · rw [called, payloads]
      exact answered
    · rw [called, called, payloads]
    · cases operator.preserving <;> rfl

end Operator

namespace Boundary

/-- A function that hands a value on with its labels, and its payload whatever the labels are. -/
structure Hands (act : Value → Params → Except Mishap Answer) : Prop where
  edits : ∀ {v params answer}, act v params = .ok answer → answer.edits = []
  carries : ∀ {v params answer payload}, act v params = .ok answer → answer.result = .ok payload →
    ∃ arrived : Value, payload = arrived.asPayload ∧ arrived.labels = v.labels ∧
      ∃ other, ∃ bare : Value, act v.bare params = .ok other ∧ other.result = .ok bare.asPayload ∧
        other.wait = answer.wait ∧ bare.payload = arrived.payload

/-- A function that gives every value back after a wait. -/
theorem Hands.of_returns {act : Value → Params → Except Mishap Answer}
    (returns : ∀ {v params answer}, act v params = .ok answer →
      ∃ wait, ∀ u, act u params = .ok { result := .ok u.asPayload, wait }) : Hands act where
  edits := by
    intro v params answer acted
    obtain ⟨wait, all⟩ := returns acted
    obtain rfl := Except.ok.inj ((all v).symm.trans acted)
    rfl
  carries := by
    intro v params answer payload acted answered
    obtain ⟨wait, all⟩ := returns acted
    obtain rfl := Except.ok.inj ((all v).symm.trans acted)
    obtain rfl := Except.ok.inj answered
    exact ⟨v, rfl, rfl, _, v.bare, all v.bare, rfl, rfl, rfl⟩

theorem hands_overWire : Hands fun value _ => overWire value where
  edits := by
    intro v params answer acted
    obtain ⟨_, _, same⟩ := Except.bind_eq_ok.mp acted
    obtain rfl := Except.ok.inj same
    rfl
  carries := by
    intro v params answer payload acted answered
    obtain ⟨_, wait, arrived, same, labels, bare, bareActed, samePayload⟩ :=
      overWire_eq_ok acted answered
    exact ⟨arrived, same, labels, _, bare, bareActed, rfl, wait.symm, samePayload⟩

/-! ## Operators that hand a value over -/

variable {operator : Operator} {name : String} {options : List String}
  {act : Value → Params → Except Mishap Answer} {inputs : List Value} {params : Params}

/-- An operator that hands a value over gives what its function answers, or a mishap. -/
theorem handOver_call (action : operator.action = handOver name options act) (store : Store) :
    (∃ mishap, operator.call inputs params store = { result := .error (.mishap mishap) }) ∨
      ∃ answer, Signature.check ⟨name, some "value", options, none⟩ params = .ok () ∧
        act (inputs.headD default) params = .ok answer ∧
          operator.call inputs params store = answer := by
  unfold Operator.call
  rw [action]
  unfold handOver
  dsimp only
  split
  · rename_i answer acted
    obtain ⟨checked, acted⟩ := Except.check_eq_ok.mp acted
    exact .inr ⟨answer, checked, acted, rfl⟩
  · rename_i mishap _
    exact .inl ⟨mishap, rfl⟩

theorem handOver_call_of_ok {answer : Answer}
    (action : operator.action = handOver name options act)
    (checked : Signature.check ⟨name, some "value", options, none⟩ params = .ok ())
    (acted : act (inputs.headD default) params = .ok answer) (store : Store) :
    operator.call inputs params store = answer := by
  unfold Operator.call
  rw [action]
  unfold handOver
  dsimp only
  rw [checked, Except.check_eq_ok.mpr ⟨rfl, acted⟩]

/-- A value that was handed over keeps the labels that it came with. -/
theorem label_handOver (action : operator.action = handOver name options act)
    (inputs : List Value) (value : Value) :
    Engine.label operator inputs value.asPayload = .ok value := by
  have notLifted : operator.lifted = false := by
    unfold Operator.lifted
    rw [action]
    rfl
  unfold Engine.label
  rw [notLifted, if_neg Bool.false_ne_true]
  rfl

/-- An operator that hands a value over is transparent if its function hands the value on. -/
theorem isTransparent_of_handOver (action : operator.action = handOver name options act)
    (arity : operator.arity = some 1) (preserving : operator.preserving = true)
    (hands : Hands act) : operator.IsTransparent where
  edits := by
    intro inputs params store
    rcases handOver_call action store with ⟨mishap, same⟩ | ⟨answer, _, acted, same⟩
    · rw [same]
    · rw [same]
      exact hands.edits acted
  carries := by
    intro inputs params store payload labelled accepts answered made
    obtain ⟨v, rfl⟩ : ∃ v, inputs = [v] := by
      unfold Operator.accepts at accepts
      rw [arity, decide_eq_true_eq] at accepts
      exact List.length_eq_one_iff.mp accepts
    rcases handOver_call action store with ⟨mishap, same⟩ | ⟨answer, checked, acted, same⟩
    · rw [same] at answered
      cases answered
    · rw [same] at answered ⊢
      obtain ⟨arrived, rfl, labels, other, bare, bareActed, bareAnswered, wait, samePayload⟩ :=
        hands.carries acted answered
      obtain rfl := Except.ok.inj ((label_handOver action _ _).symm.trans made)
      have again : ∀ store, operator.call ([v].map Value.bare) params store = other :=
        handOver_call_of_ok action checked bareActed
      refine ⟨?_, fun store => ⟨bare.asPayload, bare, ?_, ?_, label_handOver action _ _,
        samePayload⟩⟩
      · rw [preserving, if_pos rfl, labels]
        exact (SortedSet.union_empty _).symm
      · rw [again, bareAnswered]
      · rw [again, wait]

theorem isTransparent_handOver (id name description : String) (options : List String)
    (suspends : Bool) (hands : Hands act) :
    ({ id, description, suspends, action := handOver name options act } :
      Operator).IsTransparent :=
  isTransparent_of_handOver rfl rfl rfl hands

theorem isTransparent_of_mem (inside : operator ∈ operators) : operator.IsTransparent := by
  have turns : ∀ id description count, (afterTurns id description count).IsTransparent := by
    intro id description count
    exact isTransparent_handOver _ _ _ _ _ (.of_returns fun _ => ⟨_, fun _ => rfl⟩)
  unfold operators at inside
  simp only [List.mem_cons, List.not_mem_nil, or_false] at inside
  rcases inside with rfl | rfl | rfl | rfl | rfl
  · exact turns _ _ _
  · exact turns _ _ _
  · refine isTransparent_handOver _ _ _ _ _ (.of_returns ?_)
    intro v params answer acted
    obtain ⟨delay, given, _⟩ := Except.bind_eq_ok.mp acted
    exact ⟨_, fun u => Except.bind_eq_ok.mpr ⟨delay, given, rfl⟩⟩
  · exact turns _ _ _
  · exact isTransparent_handOver _ _ _ _ _ hands_overWire

end Boundary

/-- The built-in operators see only payloads and parameters. -/
theorem Builtin.action_of_mem {operator : Operator} (inside : operator ∈ Builtin.operators) :
    ∃ act : List Payload → Params → Except Mishap Payload, operator.action =
      .onPayloads fun payloads params _ => .ofResult (act payloads params) := by
  unfold Builtin.operators at inside
  simp only [List.mem_cons, List.not_mem_nil, or_false] at inside
  rcases inside with rfl | rfl | rfl | rfl | rfl | rfl | rfl | rfl | rfl | rfl | rfl | rfl | rfl |
    rfl | rfl | rfl <;> exact ⟨_, rfl⟩

theorem Builtin.isTransparent_of_mem {operator : Operator} (inside : operator ∈ Builtin.operators) :
    operator.IsTransparent := by
  obtain ⟨act, action⟩ := action_of_mem inside
  exact .of_onPayloads action

/-- The operators that come with the library. -/
def Operator.library : List Operator := Builtin.operators ++ Boundary.operators

theorem Operator.isTransparent_of_mem_library {operator : Operator}
    (inside : operator ∈ Operator.library) : operator.IsTransparent := by
  rcases List.mem_append.mp inside with builtin | boundary
  · exact Builtin.isTransparent_of_mem builtin
  · exact Boundary.isTransparent_of_mem boundary

/-- Only `literal` does not preserve labels. -/
theorem Operator.preserving_of_mem_library : ∀ operator ∈ Operator.library,
    operator.preserving = decide (operator.id ≠ "literal") := by
  decide

/-! ## Through the engine -/

/-- What an operator makes of payloads, whatever they come from. -/
def Engine.onPayloads (engine : Engine) (id : String) (params : Params)
    (payloads : List Payload) : Option Payload :=
  match (engine.apply id (payloads.map Value.constant) params none {}).outcome with
  | some (.ok output) => some output.payload
  | _ => none

namespace Engine

variable {engine : Engine} {inputs : List Value} {params : Params} {store : Store}
  {operator : Operator} {output : Value}

/-- What a transparent operator makes of values. -/
theorem Makes.carries (made : engine.Makes inputs params store operator output)
    (transparent : operator.IsTransparent) :
    output.labels = (if operator.preserving then Value.unionLabels inputs else ∅) ∧
      ∀ other, ∃ bare, engine.Makes (inputs.map Value.bare) params other operator bare ∧
        bare.payload = output.payload := by
  obtain ⟨accepts, nonempty, ⟨limit, rest, payload, labelled, bounded, inTime, ends, answered,
    label, rfl⟩, _⟩ := made
  obtain ⟨labels, again⟩ := transparent.carries accepts answered label
  refine ⟨labels, fun other => ?_⟩
  obtain ⟨result, bare, answered', wait, label', same⟩ := again other
  refine ⟨{ bare with hops := Value.furthest (inputs.map Value.bare) + 1 }, ?_, same⟩
  constructor
  · rw [List.length_map]
    exact accepts
  · exact fun none => nonempty (List.map_eq_nil_iff.mp none)
  · refine ⟨limit, rest, result, bare, bounded, ?_, ?_, answered', label', rfl⟩
    · unfold isExpired at inTime ⊢
      rw [wait]
      exact inTime
    · rw [wait]
      exact ends
  · intro _
    refine SortedSet.subset_def.mpr fun label inside => ?_
    obtain ⟨v, inBare, inLabels⟩ := Value.mem_unionLabels.mp inside
    obtain ⟨_, _, rfl⟩ := List.mem_map.mp inBare
    exact absurd inLabels (SortedSet.not_mem_empty label)

/-- What a transparent operator makes of values has the payload that it makes of their payloads. -/
theorem Makes.onPayloads {id : String} (found : engine.operators.find? id = some operator)
    (made : engine.Makes inputs params store operator output)
    (transparent : operator.IsTransparent) :
    engine.onPayloads id params (inputs.map Value.payload) = some output.payload := by
  obtain ⟨bare, bareMade, same⟩ := (made.carries transparent).2 {}
  have again : (engine.apply id (inputs.map Value.bare) params none {}).outcome = some (.ok bare) :=
    apply_eq_ok.mpr ⟨operator, found, bareMade⟩
  unfold Engine.onPayloads
  rw [List.map_map, show Value.constant ∘ Value.payload = Value.bare from rfl, again, ← same]

end Engine

end TaintFlow
