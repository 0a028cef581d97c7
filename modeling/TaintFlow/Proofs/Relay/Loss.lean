import TaintFlow.Proofs.Data.Assoc
import TaintFlow.Proofs.Relay.Library

/-!
# What an operator loses

A function of whole values answers for the labels of the value that it hands
back, if its operator must keep them.  When such a value lacks a label of an
input, the engine refuses it and names what is missing.  Everything else that the
engine refuses has another reason.  The main statements are `apply_of_drops` and
`drops_of_loss`.
-/

namespace TaintFlow

open Number

/-- A payload is read as the value that it is. -/
theorem Value.ofPayload?_eq_some {payload : Payload} {value : Value} :
    ofPayload? payload = some value ↔ payload = value.asPayload := by
  constructor
  · intro read
    cases payload with
    | value inner labels hops =>
        obtain rfl := Option.some.inj read
        rfl
    | _ => cases read
  · rintro rfl
    exact Value.ofPayload?_asPayload value

/-- An operator whose function raises none of the library's own faults. -/
def Operator.Blameless (operator : Operator) : Prop :=
  ∀ inputs params store fault, (operator.call inputs params store).result ≠ .error (.fault fault)

theorem Builtin.blameless_of_mem {operator : Operator} (inside : operator ∈ Builtin.operators) :
    operator.Blameless := by
  intro inputs params store fault raised
  obtain ⟨act, action⟩ := action_of_mem inside
  unfold Operator.call at raised
  rw [action] at raised
  obtain ⟨_, _, same⟩ := Except.mapError_eq_error.mp raised
  cases same

theorem Boundary.blameless_handOver (id name description : String) (options : List String)
    (suspends : Bool) {act : Value → Params → Except Mishap Answer}
    (own : ∀ {v params answer fault}, act v params = .ok answer →
      answer.result ≠ .error (.fault fault)) :
    ({ id, description, suspends, action := handOver name options act } : Operator).Blameless := by
  intro inputs params store fault raised
  have action : ({ id, description, suspends, action := handOver name options act } :
      Operator).action = handOver name options act := rfl
  rcases handOver_call action store with ⟨mishap, same⟩ | ⟨answer, _, acted, same⟩
  · rw [same] at raised
    cases raised
  · rw [same] at raised
    exact own acted raised

theorem Boundary.blameless_of_mem {operator : Operator} (inside : operator ∈ Boundary.operators) :
    operator.Blameless := by
  have turns : ∀ id description count, (afterTurns id description count).Blameless := by
    intro id description count
    refine blameless_handOver _ _ _ _ _ fun acted => ?_
    obtain rfl := Except.ok.inj acted
    exact nofun
  unfold operators at inside
  simp only [List.mem_cons, List.not_mem_nil, or_false] at inside
  rcases inside with rfl | rfl | rfl | rfl | rfl
  · exact turns _ _ _
  · exact turns _ _ _
  · refine blameless_handOver _ _ _ _ _ fun acted => ?_
    obtain ⟨delay, _, same⟩ := Except.bind_eq_ok.mp acted
    obtain rfl := Except.ok.inj same
    exact nofun
  · exact turns _ _ _
  · refine blameless_handOver _ _ _ _ _ fun acted raised => ?_
    obtain ⟨written, _, same⟩ := Except.bind_eq_ok.mp acted
    obtain rfl := Except.ok.inj same
    cases reading : Checked.named "TaintedValue" (Value.receive written) with
    | error what =>
        rw [reading] at raised
        cases raised
    | ok value =>
        rw [reading] at raised
        cases raised

namespace Engine

/-- Engines that come about by adding operators, one after the other. -/
inductive Built : Engine → Prop
  | plain (builtins : Bool) : Built (.plain builtins)
  | crossing (builtins : Bool) (boundary : Binary64) : Built (.crossing builtins boundary)
  | add {engine after : Engine} {operator : Operator} (before : Built engine)
      (blameless : operator.Blameless) (added : engine.add operator = .ok after) : Built after

/-- What is found in a table is one of its operators, under its own id. -/
theorem mem_of_tableOf {operators : List Operator} {id : String} {operator : Operator}
    (found : (tableOf operators).find? id = some operator) :
    operator ∈ operators ∧ operator.id = id := by
  rcases Assoc.mem_or_find?_of_putAll found with listed | none
  · obtain ⟨_, inside, same⟩ := List.mem_map.mp listed
    obtain ⟨rfl, rfl⟩ := Prod.mk.inj same
    exact ⟨inside, rfl⟩
  · cases none

/-- An operator that comes with the library, or is there if built-in operators are. -/
theorem blameless_of_mem {builtins : Bool} {operator : Operator}
    (inside : operator ∈ if builtins then Builtin.operators else []) : operator.Blameless := by
  cases builtins with
  | true => exact Builtin.blameless_of_mem inside
  | false => cases inside

/-- An operator is found under its own id, and its function raises no fault of the library. -/
theorem Built.of_find? {engine : Engine} (built : engine.Built) {id : String} {operator : Operator}
    (found : engine.operators.find? id = some operator) :
    operator.id = id ∧ operator.Blameless := by
  induction built with
  | plain builtins =>
      obtain ⟨inside, same⟩ := mem_of_tableOf found
      exact ⟨same, blameless_of_mem inside⟩
  | crossing builtins boundary =>
      obtain ⟨inside, same⟩ := mem_of_tableOf found
      refine ⟨same, ?_⟩
      rcases List.mem_append.mp inside with builtin | boundary
      · exact blameless_of_mem builtin
      · exact Boundary.blameless_of_mem boundary
  | add before blameless added ih =>
      unfold Engine.add at added
      split at added
      · cases added
      · obtain rfl := Except.ok.inj added
        rw [Assoc.find?_put] at found
        split at found
        · rename_i here
          obtain rfl := Option.some.inj found
          exact ⟨here.symm, blameless⟩
        · exact ih found

/-- What the function of an operator hands back, if the engine calls it and it answers in time. -/
def given (engine : Engine) (operator : Operator) (inputs : List Value) (params : Params)
    (store : Store) : Option Payload :=
  if inputs.isEmpty || !operator.accepts inputs.length then none
  else
    match engine.bound operator params with
    | .error _ => none
    | .ok (limit, rest) =>
      let answer := operator.call inputs rest store
      if isExpired limit answer || answer.wait.isEndless then none
      else answer.result.toOption

/-- The value for whose labels an operator answers. -/
def answered (engine : Engine) (id : String) (inputs : List Value) (params : Params)
    (store : Store) : Option Value :=
  (engine.operators.find? id).bind fun operator =>
    if operator.preserving && !operator.lifted then
      (engine.given operator inputs params store).bind Value.ofPayload?
    else none

/-- An operator that must keep the labels of its inputs hands back a value that lacks one. -/
def Drops (engine : Engine) (id : String) (inputs : List Value) (params : Params)
    (store : Store) : Prop :=
  ∃ value ∈ engine.answered id inputs params store, ¬ Value.unionLabels inputs ⊆ value.labels

variable {engine : Engine} {id : String} {inputs : List Value} {params : Params}
  {step : Option Int} {store : Store} {operator : Operator} {payload : Payload}
  {value output : Value} {fault : Fault}

instance : Decidable (engine.Drops id inputs params store) :=
  inferInstanceAs (Decidable (∃ value ∈ engine.answered id inputs params store, _))

theorem answered_eq_some :
    engine.answered id inputs params store = some value ↔
      ∃ operator, engine.operators.find? id = some operator ∧ operator.preserving = true ∧
        operator.lifted = false ∧
        engine.given operator inputs params store = some value.asPayload := by
  unfold answered
  rw [Option.bind_eq_some_iff]
  refine exists_congr fun operator => and_congr_right fun _ => ?_
  split
  · rename_i must
    rw [Bool.and_eq_true, Bool.not_eq_true'] at must
    simp only [Option.bind_eq_some_iff, Value.ofPayload?_eq_some, exists_eq_right, must, true_and]
  · rename_i may
    simp only [reduceCtorEq, false_iff]
    rintro ⟨must, whole, _⟩
    exact may (by rw [must, whole]; rfl)

theorem report_kind (limit : Option Binary64) {trouble : Trouble}
    (own : ∀ fault, trouble ≠ .fault fault) :
    (report id limit step trouble).kind = .relayFailed := by
  cases trouble with
  | fault fault => exact absurd rfl (own fault)
  | invalid what => rfl
  | mishap mishap =>
      cases limit with
      | none => rfl
      | some seconds =>
          unfold report
          dsimp only
          split
          · rfl
          · rfl

/-- What a function hands back is labelled, stamped and checked.  Where it hands nothing back, the
operator has failed, or the call never comes back. -/
theorem apply_cases (found : engine.operators.find? id = some operator) :
    (∃ payload, engine.given operator inputs params store = some payload ∧
      (engine.apply id inputs params step store).outcome =
        some (conclude operator inputs step payload)) ∨
    (engine.given operator inputs params store = none ∧
      ∀ ended, (engine.apply id inputs params step store).outcome = some ended →
        ∃ fault, ended = .error fault ∧ (operator.Blameless → fault.kind = .relayFailed)) := by
  unfold given apply
  rw [get_eq_ok.mpr found]
  dsimp only
  -- the ways in which a call fails before its function has handed anything back, in their order
  split
  · refine .inr ⟨rfl, fun ended came => ?_⟩
    exact ⟨_, (Option.some.inj came).symm, fun _ => rfl⟩
  · cases engine.bound operator params with
    | error mishap =>
        refine .inr ⟨rfl, fun ended came => ?_⟩
        exact ⟨_, (Option.some.inj came).symm, fun _ => rfl⟩
    | ok pair =>
        obtain ⟨limit, rest⟩ := pair
        dsimp only [settle]
        cases isExpired limit (operator.call inputs rest store) with
        | true =>
            refine .inr ⟨rfl, fun ended came => ?_⟩
            obtain ⟨seconds, rfl, same⟩ := Option.map_eq_some_iff.mp came
            exact ⟨_, same.symm, fun _ => rfl⟩
        | false =>
            cases (operator.call inputs rest store).wait.isEndless with
            | true => exact .inr ⟨rfl, fun ended came => nomatch came⟩
            | false =>
                cases answer : (operator.call inputs rest store).result with
                | ok payload => exact .inl ⟨payload, rfl, rfl⟩
                | error trouble =>
                    refine .inr ⟨rfl, fun ended came => ?_⟩
                    refine ⟨_, (Option.some.inj came).symm, fun blameless => ?_⟩
                    exact report_kind limit fun fault own =>
                      blameless inputs rest store fault (own ▸ answer)

/-- A function of payloads has nothing to lose: its result is labelled here. -/
theorem conclude_of_lifted (lifted : operator.lifted = true) (inputs : List Value)
    (step : Option Int) (payload : Payload) :
    ∃ output, conclude operator inputs step payload = .ok output ∧
      output.labels = if operator.preserving then Value.unionLabels inputs else ∅ := by
  refine ⟨_, conclude_eq_ok.mpr ⟨_, Operator.label_of_lifted lifted inputs payload, rfl, ?_⟩, ?_⟩
  · intro keeps
    rw [keeps]
    exact fun _ inside => inside
  · cases operator.preserving with
    | true => rfl
    | false => rfl

/-- A function of whole values hands back a value, which passes unless it lacks a label that it must
have. -/
theorem conclude_of_value (whole : operator.lifted = false) :
    conclude operator inputs step value.asPayload =
      if operator.preserving = true ∧ ¬ Value.unionLabels inputs ⊆ value.labels then
        .error ⟨.labelsLost operator.id (Value.unionLabels inputs \ value.labels) step, step⟩
      else .ok { value with hops := Value.furthest inputs + 1 } := by
  have labelled : label operator inputs value.asPayload = .ok value := by
    unfold label
    rw [whole, if_neg Bool.false_ne_true, Value.ofPayload?_asPayload]
  split
  · rename_i lacks
    unfold conclude
    rw [labelled, lacks.1]
    show (ensurePreserved operator.id inputs _ step >>= _) = _
    unfold ensurePreserved ensureLabels missingLabels
    dsimp only
    rw [if_neg fun none => lacks.2 (SortedSet.isEmpty_diff_iff.mp none)]
    rfl
  · rename_i keeps
    refine conclude_eq_ok.mpr ⟨value, labelled, rfl, fun must => ?_⟩
    exact Classical.byContradiction fun lacks => keeps ⟨must, lacks⟩

/-- What is no value is not let through. -/
theorem conclude_of_other (whole : operator.lifted = false)
    (other : ∀ value, payload ≠ Value.asPayload value) :
    conclude operator inputs step payload =
      .error ⟨.notAValue operator.id payload.typeName, step⟩ := by
  have unread : Value.ofPayload? payload = none := by
    rw [Option.eq_none_iff_forall_ne_some]
    exact fun value read => other value (Value.ofPayload?_eq_some.mp read)
  unfold conclude label
  rw [whole, if_neg Bool.false_ne_true, unread]
  rfl

/-- A lost label is found out, and the fault names all that are missing. -/
theorem apply_of_drops (built : engine.Built) (step : Option Int)
    (answers : engine.answered id inputs params store = some value)
    (lacks : ¬ Value.unionLabels inputs ⊆ value.labels) :
    (engine.apply id inputs params step store).outcome =
      some (.error ⟨.labelsLost id (Value.unionLabels inputs \ value.labels) step, step⟩) := by
  obtain ⟨operator, found, must, whole, gave⟩ := answered_eq_some.mp answers
  rcases apply_cases found with ⟨payload, same, concluded⟩ | ⟨silent, _⟩
  · obtain rfl := Option.some.inj (gave.symm.trans same)
    rw [concluded, conclude_of_value whole, if_pos ⟨must, lacks⟩, (built.of_find? found).1]
  · rw [gave] at silent
    cases silent

theorem apply_of_unknown (missing : engine.operators.find? id = none) :
    (engine.apply id inputs params step store).outcome =
      some (.error ⟨.unknown .operator id, none⟩) := by
  unfold apply Engine.get
  rw [missing]

/-- An operator that hands back what cannot pass has handed back no value, or it has dropped a label,
and the fault says which. -/
theorem conclude_eq_error (refused : conclude operator inputs step payload = .error fault) :
    fault = ⟨.notAValue operator.id payload.typeName, step⟩ ∨
      operator.preserving = true ∧ operator.lifted = false ∧
        ∃ value : Value, payload = value.asPayload ∧ ¬ Value.unionLabels inputs ⊆ value.labels ∧
          fault = ⟨.labelsLost operator.id (Value.unionLabels inputs \ value.labels) step, step⟩ := by
  cases whole : operator.lifted with
  | true =>
      obtain ⟨output, passed, _⟩ := conclude_of_lifted whole inputs step payload
      rw [passed] at refused
      cases refused
  | false =>
      by_cases read : ∃ value, payload = Value.asPayload value
      · obtain ⟨value, rfl⟩ := read
        rw [conclude_of_value whole] at refused
        split at refused
        · rename_i lacks
          exact .inr ⟨lacks.1, rfl, value, rfl, lacks.2, (Except.error.inj refused).symm⟩
        · cases refused
      · rw [conclude_of_other whole fun value same => read ⟨value, same⟩] at refused
        exact .inl (Except.error.inj refused).symm

/-- No call is refused for a loss but one that drops a label. -/
theorem drops_of_loss (built : engine.Built)
    (refused : (engine.apply id inputs params step store).outcome = some (.error fault))
    (loss : fault.kind = .taintLoss) : engine.Drops id inputs params store := by
  cases found : engine.operators.find? id with
  | none =>
      rw [apply_of_unknown found] at refused
      obtain rfl := Except.error.inj (Option.some.inj refused)
      cases loss
  | some operator =>
      rcases apply_cases found with ⟨payload, gave, concluded⟩ | ⟨_, failed⟩
      · rw [concluded] at refused
        rcases conclude_eq_error (Option.some.inj refused) with
          rfl | ⟨must, whole, value, rfl, lacks, _⟩
        · cases loss
        · exact ⟨value, answered_eq_some.mpr ⟨operator, found, must, whole, gave⟩, lacks⟩
      · obtain ⟨_, same, other⟩ := failed _ refused
        obtain rfl := Except.error.inj same
        rw [other (built.of_find? found).2] at loss
        cases loss

end Engine

end TaintFlow
