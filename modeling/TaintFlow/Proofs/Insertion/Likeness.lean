import TaintFlow.Proofs.Fanout.Calls
import TaintFlow.Proofs.Insertion.Place
import TaintFlow.Proofs.Isolation.View

/-!
# Worlds and outcomes beside each other

A step that is inserted in a chain writes to a key of its own or calls sinks of its own.
Two worlds are beside each other if they differ in no more than that; what the other
steps call then comes to the same, and so does an operator, but for the index of the
step at which it is applied.
-/

namespace TaintFlow

/-! ## Faults and entries at another step -/

/-- A cause without the step that it names. -/
def Cause.unplaced : Cause → Cause
  | .labelsLost component missing _ => .labelsLost component missing none
  | other => other

theorem Cause.unplaced_kind (cause : Cause) : cause.unplaced.kind = cause.kind := by
  cases cause <;> rfl

theorem Cause.unplaced_component (cause : Cause) :
    cause.unplaced.component = cause.component := by
  cases cause <;> rfl

theorem Cause.unplaced_missing (cause : Cause) : cause.unplaced.missing = cause.missing := by
  cases cause <;> rfl

theorem Cause.unplaced_of_rejected {cause : Cause} (rejected : cause.kind = .sinkRejected) :
    cause.unplaced = cause := by
  cases cause <;> first | rfl | cases rejected

/-- Two faults are alike that differ in no more than the step at which they came up. -/
def Fault.Like (fault other : Fault) : Prop := fault.cause.unplaced = other.cause.unplaced

namespace Fault.Like

variable {fault other : Fault}

theorem refl (fault : Fault) : fault.Like fault := rfl

theorem kind (like : fault.Like other) : fault.kind = other.kind := by
  have same := congrArg Cause.kind like
  rwa [Cause.unplaced_kind, Cause.unplaced_kind] at same

theorem component (like : fault.Like other) : fault.cause.component = other.cause.component := by
  have same := congrArg Cause.component like
  rwa [Cause.unplaced_component, Cause.unplaced_component] at same

theorem missing (like : fault.Like other) : fault.cause.missing = other.cause.missing := by
  have same := congrArg Cause.missing like
  rwa [Cause.unplaced_missing, Cause.unplaced_missing] at same

/-- What a sink rejected is rejected for the very same cause. -/
theorem rejection (like : fault.Like other) (rejected : fault.kind = .sinkRejected) :
    Run.rejection fault = Run.rejection other := by
  have same : fault.cause = other.cause := by
    have cause : fault.cause.unplaced = other.cause.unplaced := like
    rwa [Cause.unplaced_of_rejected rejected,
      Cause.unplaced_of_rejected (like.kind.symm.trans rejected)] at cause
  unfold Run.rejection Fault.message
  rw [same]

end Fault.Like

/-- What a recorded error says akin from the step, which its text may name. -/
def ErrorRecord.unplaced (error : ErrorRecord) : ErrorKind × Option String × List String :=
  (error.kind, error.component, error.missing)

theorem Fault.Like.record_atStep {fault other : Fault} (like : fault.Like other)
    (step step' : Option Int) :
    (some ((other.atStep step').record step')).map ErrorRecord.unplaced =
      (some ((fault.atStep step).record step)).map ErrorRecord.unplaced := by
  have placed : (fault.atStep step).Like (other.atStep step') := like
  unfold ErrorRecord.unplaced Fault.record
  rw [Option.map_some, Option.map_some, placed.kind, placed.component, placed.missing]

/-- Two entries of traces tell the same of a step, which stands further back in one of the chains
if it stands behind an index. -/
structure StepTrace.Like (k : Nat) (shown other : StepTrace) : Prop where
  index : other.index = Chain.shifted k shown.index
  step : other.step = shown.step
  labels : other.labels = shown.labels
  hops : other.hops = shown.hops
  outcome : other.outcome = shown.outcome
  sinkResults : other.sinkResults = shown.sinkResults
  error : other.error.map ErrorRecord.unplaced = shown.error.map ErrorRecord.unplaced

/-! ## Worlds -/

namespace World

variable {network : Network} {sinks : List String} {view : Partition → String → Prop}
  {w w' : World}

/-- Two worlds whose stores show the same in a view, and in which capabilities have had the same
calls, but for calls of some sinks that have been made in one of them at one time. -/
structure Beside (sinks : List String) (view : Partition → String → Prop) (w w' : World) :
    Prop where
  store : Store.Agree view w.store w'.store
  calls : ∀ owner, ∃ before own after, w.callsOf owner = before ++ after ∧
    w'.callsOf owner = before ++ own ++ after ∧ ((∀ id ∈ sinks, owner ≠ .sink id) → own = [])

namespace Beside

theorem refl (sinks : List String) (view : Partition → String → Prop) (w : World) :
    Beside sinks view w w where
  store := .refl view w.store
  calls owner := ⟨w.callsOf owner, [], [], (List.append_nil _).symm, by simp, fun _ => rfl⟩

/-- What a world shows is what stands in its store and the calls that have been made. -/
theorem of_eq {v v' : World} (beside : Beside sinks view w w') (store : v.store = w.store)
    (calls : ∀ owner, v.callsOf owner = w.callsOf owner) (store' : v'.store = w'.store)
    (calls' : ∀ owner, v'.callsOf owner = w'.callsOf owner) : Beside sinks view v v' where
  store := by
    rw [store, store']
    exact beside.store
  calls owner := by
    rw [calls, calls']
    exact beside.calls owner

variable {owner : Owner} {capability : Capability}

/-- A capability replies the same, if none of the sinks is its owner or it keeps no state. -/
theorem callEnd_eq (beside : Beside sinks view w w')
    (spared : (∃ id ∈ sinks, owner = .sink id) → capability.Forgetful) (argument : Payload)
    (timeout : Option Timeout) : capability.callEnd (w.callsOf owner) argument timeout =
      capability.callEnd (w'.callsOf owner) argument timeout := by
  by_cases own : ∃ id ∈ sinks, owner = .sink id
  · exact (spared own).callEnd _ _ argument timeout
  · obtain ⟨before, added, after, calls, calls', none⟩ := beside.calls owner
    obtain rfl := none fun id inside same => own ⟨id, inside, same⟩
    rw [calls, calls', List.append_nil]

theorem exists_historyAfter (capability : Capability) (argument : Payload)
    (timeout : Option Timeout) : ∃ more, ∀ history,
      capability.historyAfter history argument timeout = history ++ more := by
  unfold Capability.historyAfter
  split
  · exact ⟨[], fun history => (List.append_nil history).symm⟩
  · split
    · exact ⟨[], fun history => (List.append_nil history).symm⟩
    · exact ⟨[argument], fun history => rfl⟩

theorem callCapability (beside : Beside sinks view w w') (owner : Owner) (capability : Capability)
    (argument : Payload) (timeout : Option Timeout) :
    Beside sinks view (w.callCapability owner capability argument timeout).2
      (w'.callCapability owner capability argument timeout).2 where
  store := beside.store
  calls other := by
    obtain ⟨before, own, after, calls, calls', none⟩ := beside.calls other
    obtain ⟨more, appended⟩ := exists_historyAfter capability argument timeout
    unfold World.callCapability
    dsimp only
    rw [callsOf_put, callsOf_put]
    by_cases same : other = owner
    · subst same
      refine ⟨before, own, after ++ more, ?_, ?_, none⟩
      · rw [if_pos rfl, appended, calls, List.append_assoc]
      · rw [if_pos rfl, appended, calls', List.append_assoc]
    · refine ⟨before, own, after, ?_, ?_, none⟩
      · rw [if_neg same, calls]
      · rw [if_neg same, calls']

/-- A source says the same. -/
theorem callSource (beside : Beside sinks view w w') (network : Network) (at_ at' : Location)
    (id : String) (context : Payload) (given : Option Timeout) :
    (w.callSource network at_ id context given).1 = (w'.callSource network at' id context given).1 ∧
      Beside sinks view (w.callSource network at_ id context given).2
        (w'.callSource network at' id context given).2 := by
  unfold World.callSource
  cases network.sources.get id with
  | error fault => exact ⟨rfl, beside⟩
  | ok s =>
      have spared : (∃ sink ∈ sinks, Owner.source id = .sink sink) → s.capability.Forgetful :=
        fun ⟨_, _, same⟩ => nomatch same
      have said := beside.callEnd_eq spared context (timeoutOf network given s.timeout)
      have called := beside.callCapability (.source id) s.capability context
        (timeoutOf network given s.timeout)
      dsimp only [World.callCapability] at called ⊢
      rw [← said]
      split <;> exact ⟨rfl, called.store, called.calls⟩

/-- A sink says the same, if it is none of the sinks or keeps no state. -/
theorem callSink (beside : Beside sinks view w w') {id : String}
    (spared : id ∈ sinks → ∀ s, network.sinks.find? id = some s → s.capability.Forgetful)
    (at_ at' : Location) (value : Value) (given : Option Timeout) :
    (w.callSink network at_ id value given).1 = (w'.callSink network at' id value given).1 ∧
      Beside sinks view (w.callSink network at_ id value given).2
        (w'.callSink network at' id value given).2 := by
  unfold World.callSink Sinks.get
  cases found : network.sinks.find? id with
  | none => exact ⟨rfl, beside⟩
  | some s =>
      have kept : (∃ sink ∈ sinks, Owner.sink id = .sink sink) → s.capability.Forgetful :=
        fun ⟨_, inside, same⟩ => spared (Owner.sink.inj same ▸ inside) s found
      have said := beside.callEnd_eq kept value.payload (timeoutOf network given s.timeout)
      have called := beside.callCapability (.sink id) s.capability value.payload
        (timeoutOf network given s.timeout)
      dsimp only [World.callCapability] at called ⊢
      rw [← said]
      split <;> exact ⟨rfl, called.store, called.calls⟩

end Beside

end World

/-! ## Operators -/

/-- Two outcomes are the same, or faults that are alike. -/
inductive Alike {α : Type} : Option (Except Fault α) → Option (Except Fault α) → Prop
  | stalled : Alike none none
  | failed {fault other : Fault} (like : fault.Like other) :
      Alike (some (.error fault)) (some (.error other))
  | came (a : α) : Alike (some (.ok a)) (some (.ok a))

namespace Engine

variable {engine : Engine} {inputs : List Value} {operator : Operator} {step step' : Option Int}

theorem conclude_alike (payload : Payload) :
    Alike (some (conclude operator inputs step payload))
      (some (conclude operator inputs step' payload)) := by
  unfold conclude
  cases label operator inputs payload with
  | error fault => exact .failed rfl
  | ok labelled =>
      dsimp only [Except.mapError, bind, Except.bind]
      cases operator.preserving with
      | false => exact .came _
      | true =>
          unfold ensurePreserved ensureLabels
          dsimp only
          cases (missingLabels (Value.unionLabels inputs)
            { labelled with hops := Value.furthest inputs + 1 }).isEmpty with
          | true => exact .came _
          | false => exact .failed rfl

theorem settle_alike (limit : Option Number.Binary64) (answer : Answer) :
    Alike (settle operator inputs step limit answer)
      (settle operator inputs step' limit answer) := by
  unfold settle
  split
  · cases limit with
    | none => exact .stalled
    | some seconds => exact .failed rfl
  · split
    · exact .stalled
    · cases answer.result with
      | ok payload => exact conclude_alike payload
      | error trouble =>
          refine .failed ?_
          unfold report
          cases trouble with
          | fault fault => rfl
          | invalid what => rfl
          | mishap mishap =>
              dsimp only
              split
              · split <;> rfl
              · rfl

/-- An operator that keeps away from the store gives the same, wherever it is applied. -/
theorem apply_alike {id : String}
    (aloof : ∀ operator, engine.operators.find? id = some operator → operator.Aloof)
    (inputs : List Value) (params : Params) (step step' : Option Int) (store store' : Store) :
    Alike (engine.apply id inputs params step store).outcome
      (engine.apply id inputs params step' store').outcome := by
  unfold apply get
  cases found : engine.operators.find? id with
  | none => exact .failed rfl
  | some operator =>
      dsimp only
      split
      · exact .failed rfl
      · cases engine.bound operator params with
        | error mishap => exact .failed rfl
        | ok limited =>
            obtain ⟨limit, rest⟩ := limited
            dsimp only
            rw [(aloof operator found inputs rest store).1,
              (aloof operator found inputs rest store').1]
            exact settle_alike limit _

end Engine

namespace World

variable {network : Network} {sinks : List String} {view : Partition → String → Prop}
  {w w' : World}

theorem editAll_of_untouched (w : World) (at_ : Location) {edits : List Store.Edit}
    (none : edits = []) : w.editAll at_ edits = w := by
  rw [none]
  rfl

/-- To note a fault changes neither the store nor the calls that have been made. -/
theorem noteFault_calls (w : World) (at_ : Location) (fault : Fault) :
    (w.noteFault at_ fault).calls = w.calls := by
  unfold noteFault
  split <;> rfl

theorem edit_calls (w : World) (at_ : Location) (e : Store.Edit) :
    (w.edit at_ e).calls = w.calls := by
  unfold edit
  split <;> rfl

theorem callsOf_of_calls {v : World} (calls : v.calls = w.calls) (owner : Owner) :
    v.callsOf owner = w.callsOf owner := by
  unfold callsOf
  rw [calls]

/-- An operator that keeps away from the store comes to the same. -/
theorem Beside.applyOperator (beside : Beside sinks view w w') {id : String}
    (aloof : ∀ operator, network.engine.operators.find? id = some operator → operator.Aloof)
    (at_ at' : Location) (inputs : List Value) (params : Params) (step step' : Option Int) :
    Alike (w.applyOperator network at_ id inputs params step).1
        (w'.applyOperator network at' id inputs params step').1 ∧
      Beside sinks view (w.applyOperator network at_ id inputs params step).2
        (w'.applyOperator network at' id inputs params step').2 := by
  have calls : ∀ (v : World) at_ step,
      (v.applyOperator network at_ id inputs params step).2.calls = v.calls ∧
        (v.applyOperator network at_ id inputs params step).2.store = v.store := by
    intro v at_ step
    have none : (network.engine.apply id inputs params step v.store).edits = [] :=
      Engine.edits_eq_nil fun operator found inputs params store =>
        (aloof operator found inputs params store).2
    unfold World.applyOperator
    dsimp only
    rw [v.editAll_of_untouched at_ none]
    split
    · exact ⟨noteFault_calls v at_ _, noteFault_store v at_ _⟩
    · exact ⟨rfl, rfl⟩
  refine ⟨?_, beside.of_eq (calls w at_ step).2 (callsOf_of_calls (calls w at_ step).1)
    (calls w' at' step').2 (callsOf_of_calls (calls w' at' step').1)⟩
  rw [applyOperator_outcome, applyOperator_outcome]
  exact Engine.apply_alike aloof inputs params step step' w.store w'.store

end World

end TaintFlow
