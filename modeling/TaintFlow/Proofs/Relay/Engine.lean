import TaintFlow.Proofs.Data.Except
import TaintFlow.Proofs.Labels
import TaintFlow.Relay.Engine

/-!
# What the engine returns

A value that the engine returns is what the operator's function made of the
inputs, labelled and stamped by the engine, and every such value is returned.
The main statement is `apply_eq_ok`.
-/

namespace TaintFlow

theorem Engine.get_eq_ok {engine : Engine} {id : String} {operator : Operator} :
    engine.get id = .ok operator ↔ engine.operators.find? id = some operator := by
  unfold get
  split
  · rename_i found
    rw [found, Option.some.injEq, Except.ok.injEq]
  · rename_i missing
    rw [missing]
    constructor
    · intro got
      cases got
    · intro found
      cases found

namespace Engine

variable {engine : Engine} {id : String} {inputs : List Value} {params : Params}
  {step : Option Int} {store : Store} {output : Value}

/-- An operator that makes a value of its inputs: its function answered in time, and the engine has
labelled, stamped and checked the answer. -/
structure Makes (engine : Engine) (inputs : List Value) (params : Params) (store : Store)
    (operator : Operator) (output : Value) : Prop where
  accepts : operator.accepts inputs.length = true
  nonempty : inputs ≠ []
  answer : ∃ limit rest payload labelled, engine.bound operator params = .ok (limit, rest) ∧
    isExpired limit (operator.call inputs rest store) = false ∧
    (operator.call inputs rest store).wait.isEndless = false ∧
    (operator.call inputs rest store).result = .ok payload ∧
    label operator inputs payload = .ok labelled ∧
    output = { labelled with hops := Value.furthest inputs + 1 }
  kept : operator.preserving = true → Value.unionLabels inputs ⊆ output.labels

/-- An output passes if it can be labelled, is stamped, and keeps all labels if its operator
preserves them. -/
theorem conclude_eq_ok {operator : Operator} {payload : Payload} :
    conclude operator inputs step payload = .ok output ↔
      ∃ labelled, label operator inputs payload = .ok labelled ∧
        output = { labelled with hops := Value.furthest inputs + 1 } ∧
        (operator.preserving = true → Value.unionLabels inputs ⊆ output.labels) := by
  unfold conclude
  rw [Except.bind_eq_ok]
  refine exists_congr fun labelled => ?_
  rw [Except.mapError_eq_ok]
  refine and_congr_right fun _ => ?_
  cases operator.preserving with
  | false =>
      rw [if_neg Bool.false_ne_true]
      constructor
      · intro same
        exact ⟨(Except.ok.inj same).symm, fun preserving => absurd preserving Bool.false_ne_true⟩
      · rintro ⟨rfl, _⟩
        rfl
  | true =>
      rw [if_pos rfl, Except.check_eq_ok, ensurePreserved, ensureLabels_eq_ok_iff]
      constructor
      · rintro ⟨kept, same⟩
        obtain rfl := Except.ok.inj same
        exact ⟨rfl, fun _ => kept⟩
      · rintro ⟨rfl, kept⟩
        exact ⟨kept rfl, rfl⟩

/-- An answer counts if it comes in time and passes. -/
theorem settle_eq_ok {operator : Operator} {limit : Option Number.Binary64} {answer : Answer} :
    settle operator inputs step limit answer = some (.ok output) ↔
      isExpired limit answer = false ∧ answer.wait.isEndless = false ∧
        ∃ payload, answer.result = .ok payload ∧
          conclude operator inputs step payload = .ok output := by
  unfold settle
  cases expired : isExpired limit answer with
  | true =>
      rw [if_pos rfl]
      constructor
      · intro settled
        cases limit with
        | none => cases settled
        | some seconds => cases settled
      · rintro ⟨inTime, _⟩
        cases inTime
  | false =>
      rw [if_neg Bool.false_ne_true]
      cases answer.wait.isEndless with
      | true =>
          rw [if_pos rfl]
          constructor
          · intro settled
            cases settled
          · rintro ⟨_, ends, _⟩
            cases ends
      | false =>
          rw [if_neg Bool.false_ne_true]
          cases answer.result with
          | error trouble =>
              constructor
              · intro settled
                cases settled
              · rintro ⟨_, _, _, answered, _⟩
                cases answered
          | ok payload =>
              constructor
              · intro settled
                exact ⟨rfl, rfl, payload, rfl, Option.some.inj settled⟩
              · rintro ⟨_, _, _, answered, concluded⟩
                obtain rfl := Except.ok.inj answered
                exact congrArg some concluded

/-- What an operator makes is its settled answer. -/
theorem makes_iff {operator : Operator} :
    engine.Makes inputs params store operator output ↔
      inputs ≠ [] ∧ operator.accepts inputs.length = true ∧
        ∃ limit rest, engine.bound operator params = .ok (limit, rest) ∧
          settle operator inputs step limit (operator.call inputs rest store) =
            some (.ok output) := by
  simp only [settle_eq_ok, conclude_eq_ok]
  constructor
  · rintro ⟨accepts, nonempty, ⟨limit, rest, payload, labelled, bounded, inTime, ends, answered, made,
      same⟩, kept⟩
    exact ⟨nonempty, accepts, limit, rest, bounded, inTime, ends, payload, answered, labelled, made,
      same, kept⟩
  · rintro ⟨nonempty, accepts, limit, rest, bounded, inTime, ends, payload, answered, labelled, made,
      same, kept⟩
    exact ⟨accepts, nonempty, ⟨limit, rest, payload, labelled, bounded, inTime, ends, answered, made,
      same⟩, kept⟩

/-- The engine returns exactly what a registered operator makes of its inputs. -/
theorem apply_eq_ok :
    (engine.apply id inputs params step store).outcome = some (.ok output) ↔
      ∃ operator, engine.operators.find? id = some operator ∧
        engine.Makes inputs params store operator output := by
  unfold apply
  cases got : engine.get id with
  | error fault =>
      constructor
      · intro applied
        cases applied
      · rintro ⟨operator, found, _⟩
        rw [get_eq_ok.mpr found] at got
        cases got
  | ok operator =>
      have found := get_eq_ok.mp got
      have only : (∃ other, engine.operators.find? id = some other ∧
          engine.Makes inputs params store other output) ↔
            engine.Makes inputs params store operator output := by
        constructor
        · rintro ⟨other, same, made⟩
          obtain rfl := Option.some.inj (found.symm.trans same)
          exact made
        · intro made
          exact ⟨operator, found, made⟩
      rw [only, makes_iff]
      dsimp only
      split
      · rename_i wrong
        constructor
        · intro applied
          cases applied
        · rintro ⟨nonempty, accepts, _⟩
          rw [List.isEmpty_eq_false_iff.mpr nonempty, accepts] at wrong
          cases wrong
      · rename_i counted
        rw [Bool.or_eq_true, not_or, Bool.not_eq_true', Bool.not_eq_false] at counted
        have nonempty : inputs ≠ [] := fun none => counted.1 (List.isEmpty_iff.mpr none)
        cases engine.bound operator params with
        | error mishap =>
            constructor
            · intro applied
              cases applied
            · rintro ⟨_, _, _, _, bounded, _⟩
              cases bounded
        | ok pair =>
            obtain ⟨limit, rest⟩ := pair
            constructor
            · intro settled
              exact ⟨nonempty, counted.2, limit, rest, rfl, settled⟩
            · rintro ⟨_, _, _, _, bounded, settled⟩
              obtain ⟨rfl, rfl⟩ := Prod.mk.inj (Except.ok.inj bounded)
              exact settled

theorem Makes.hops {operator : Operator} (made : engine.Makes inputs params store operator output) :
    output.hops = Value.furthest inputs + 1 := by
  obtain ⟨_, _, _, _, _, _, _, _, _, same⟩ := made.answer
  rw [same]

/-- An operator whose function asks for no edits makes none. -/
theorem edits_eq_nil
    (quiet : ∀ operator, engine.operators.find? id = some operator →
      ∀ inputs params store, (operator.call inputs params store).edits = []) :
    (engine.apply id inputs params step store).edits = [] := by
  unfold apply
  cases got : engine.get id with
  | error fault => rfl
  | ok operator =>
      dsimp only
      split
      · rfl
      · split
        · rfl
        · dsimp only
          rw [quiet operator (get_eq_ok.mp got)]
          split <;> rfl

end Engine

end TaintFlow
