import TaintFlow.Chain.Concurrency
import TaintFlow.Proofs.Labels
import TaintFlow.Proofs.World

/-!
# What a turn of a run comes to

A turn is described twice.  `report` lists the events that others can see in it:
what a source gave, what was read from the store, what was handed to sinks, and
how the step went.  `Deed` says what the turn makes of the run.

The main statement is `deed_of_advance`: every turn is one of the deeds.  What
runs keep is proved by cases on deeds, without opening a turn again.
-/

namespace TaintFlow.Run

/-! ## Events -/

/-- What happens to a run, as others see it. -/
inductive Event where
  /-- A source gave a value. -/
  | gave (source : String) (value : Value)
  /-- A stored value was read. -/
  | read (origin : StoreRef) (value : Value)
  /-- The active value was handed to the sinks of a step. -/
  | delivered (step : Nat) (value : Value) (outcomes : List (Except Fault SinkResult))
  /-- A component or the store did not do its part in a step. -/
  | refused (step : Nat)
  /-- A step was done without a fault. -/
  | passed (step : Nat)
  /-- A step was given up. -/
  | stopped (step : Nat) (failure : Failure)

/-- The value that an event brings into the run. -/
def Event.value? : Event → Option Value
  | gave _ value => some value
  | read _ value => some value
  | _ => none

/-- The labels of all values that events bring into a run. -/
def entrants (log : List Event) : LabelSet := Value.unionLabels (log.filterMap Event.value?)

/-- Did every sink accept? -/
def Accepted (outcomes : List (Except Fault SinkResult)) : Prop :=
  ∀ outcome ∈ outcomes, outcome.isOk = true

/-- Did a component that is there not do what it was asked?  One that is unknown was not asked. -/
def isDeclined {α : Type} : Option (Except Fault α) → Bool
  | none => true
  | some (.error fault) => fault.kind ≠ .unknownComponent
  | some (.ok _) => false

/-- What a source gives to a run. -/
def givenBy (network : Network) (w : World) (r : Run) (id : String) : List Event :=
  match (w.callSource network r.location id r.context r.timeout).1 with
  | some (.ok value) => [.gave id value]
  | _ => []

/-- What is read from the store under several keys, up to the first that cannot be read. -/
def readings (network : Network) (store : Store) (r : Run) : List StoreRef → List Event
  | [] => []
  | origin :: rest =>
    match load network store r origin with
    | .ok (value, r) => .read origin value :: readings network store r rest
    | .error _ => []

/-- What is still to be read before a merge. -/
def pendingReadings (network : Network) (store : Store) (r : Run) (loads : List StoreRef) :
    List Event :=
  if r.loaded then [] else readings network store r loads

/-- The values that come into a run in a step. -/
def arrivals (network : Network) (w : World) (r : Run) : Step → List Event
  | .source id => givenBy network w r id
  | .load origin => readings network w.store r [origin]
  | .merge sources loads _ _ =>
    match sources[r.gathered.length]? with
    | some source => givenBy network w r source
    | none => pendingReadings network w.store r loads
  | .relay .. | .store _ | .fanout _ | .sink _ => []

/-- What several sinks say to a value, if they have been called one by one or else at once. -/
def sinkOutcomes (network : Network) (w : World) (r : Run) (value : Value)
    (sinks : List String) : List (Option (Except Fault SinkResult)) :=
  if r.calls.isEmpty then (callSinks network w r value sinks).1
  else r.calls.map SinkCall.outcome?

/-- What is handed to sinks in a step. -/
def deliveries (network : Network) (w : World) (r : Run) (step : Step) : List Event :=
  match step, r.top? with
  | .sink id, some value =>
    match (w.callSink network r.location id value.forward r.timeout).1 with
    | some outcome => [.delivered r.next value.forward [outcome]]
    | none => []
  | .fanout sinks, some value =>
    match (sinkOutcomes network w r value.forward sinks).mapM id with
    | some outcomes => [.delivered r.next value.forward outcomes]
    | none => []
  | _, _ => []

/-- Does an operator that is there, asked for as many inputs as it takes, give no value? -/
def operatorDeclines (network : Network) (w : World) (r : Run) (id : String)
    (inputs : List Value) (params : Params) : Bool :=
  match network.engine.operators.find? id with
  | none => false
  | some operator =>
    !inputs.isEmpty && operator.accepts inputs.length &&
      match (w.applyOperator network r.location id inputs params (some r.next)).1 with
      | some (.ok _) => false
      | _ => true

/-- Does something that a step relies on not do its part? -/
def refuses (network : Network) (w : World) (r : Run) : Step → Bool
  | .source id => isDeclined (w.callSource network r.location id r.context r.timeout).1
  | .relay id params =>
    let held := r.stack.length
    let count := match network.engine.operators.find? id with
      | some operator => operator.arity.getD held
      | none => 0
    count ≤ held && operatorDeclines network w r id (r.stack.drop (held - count)) params
  | .store _ => false
  | .load origin => !(load network w.store r origin).isOk
  | .fanout sinks =>
    match r.top? with
    | some value => (sinkOutcomes network w r value.forward sinks).any isDeclined
    | none => false
  | .merge sources loads id params =>
    match sources[r.gathered.length]? with
    | some source => isDeclined (w.callSource network r.location source r.context r.timeout).1
    | none =>
      match mergeInputs network w.store r loads with
      | .error _ => true
      | .ok (inputs, _) => operatorDeclines network w r id inputs params
  | .sink id =>
    match r.top? with
    | some value =>
      isDeclined (w.callSink network r.location id value.forward r.timeout).1
    | none => false

/-- How a step went. -/
def Turn.verdict (step : Nat) : Turn → List Event
  | .passed _ entry => if entry.error.isNone then [.passed step] else []
  | .failed _ fault => [.stopped step (.fault fault)]
  | .crashed _ mishap => [.stopped step (.mishap mishap)]
  | .stalled | .partly _ => []

/-- The events of the next turn of a run. -/
def report (network : Network) (w : World) (r : Run) : List Event :=
  match r.chain.steps[r.next]? with
  | none => []
  | some step =>
    arrivals network w r step ++ deliveries network w r step ++
      ((if refuses network w r step then [.refused r.next] else []) ++
        (runStep network w r step).2.verdict r.next)

/-! ## What is in a report -/

variable {network : Network} {w : World} {r : Run} {step : Step}

@[simp] theorem entrants_nil : entrants [] = ∅ := rfl

@[simp] theorem entrants_gave (id : String) (value : Value) (log : List Event) :
    entrants (.gave id value :: log) = value.labels ∪ entrants log := rfl

@[simp] theorem entrants_read (origin : StoreRef) (value : Value) (log : List Event) :
    entrants (.read origin value :: log) = value.labels ∪ entrants log := rfl

theorem entrants_append (log more : List Event) :
    entrants (log ++ more) = entrants log ∪ entrants more := by
  unfold entrants
  rw [List.filterMap_append, Value.unionLabels_append]

/-- A label enters with an event that brings a value with it. -/
theorem mem_entrants {label : Label} {log : List Event} :
    label ∈ entrants log ↔ ∃ event ∈ log, ∃ value, event.value? = some value ∧
      label ∈ value.labels := by
  unfold entrants
  rw [Value.mem_unionLabels]
  constructor
  · rintro ⟨value, inValues, inside⟩
    obtain ⟨event, inLog, brings⟩ := List.mem_filterMap.mp inValues
    exact ⟨event, inLog, value, brings, inside⟩
  · rintro ⟨event, inLog, value, brings, inside⟩
    exact ⟨value, List.mem_filterMap.mpr ⟨event, inLog, brings⟩, inside⟩

theorem entrants_eq_empty {log : List Event} (none : ∀ event ∈ log, event.value? = none) :
    entrants log = ∅ := by
  unfold entrants
  rw [List.filterMap_eq_nil_iff.mpr none]
  rfl

theorem gave_of_mem_givenBy {id : String} {event : Event}
    (inside : event ∈ givenBy network w r id) : ∃ value, event = .gave id value := by
  unfold givenBy at inside
  split at inside
  · exact ⟨_, List.mem_singleton.mp inside⟩
  · exact absurd inside List.not_mem_nil

theorem read_of_mem_readings {store : Store} {loads : List StoreRef} {event : Event}
    (inside : event ∈ readings network store r loads) :
    ∃ origin value, event = .read origin value := by
  induction loads generalizing r with
  | nil => exact absurd inside List.not_mem_nil
  | cons origin rest ih =>
      unfold readings at inside
      split at inside
      · rcases List.mem_cons.mp inside with rfl | inRest
        · exact ⟨_, _, rfl⟩
        · exact ih inRest
      · exact absurd inside List.not_mem_nil

theorem read_of_mem_pendingReadings {store : Store} {loads : List StoreRef} {event : Event}
    (inside : event ∈ pendingReadings network store r loads) :
    ∃ origin value, event = .read origin value := by
  unfold pendingReadings at inside
  split at inside
  · exact absurd inside List.not_mem_nil
  · exact read_of_mem_readings inside

/-- What arrives is given by a source or read from the store. -/
theorem gave_or_read_of_mem_arrivals {event : Event} (inside : event ∈ arrivals network w r step) :
    (∃ id value, event = .gave id value) ∨ ∃ origin value, event = .read origin value := by
  cases step with
  | source id => exact .inl ⟨id, gave_of_mem_givenBy inside⟩
  | load origin => exact .inr (read_of_mem_readings inside)
  | merge sources loads id params =>
      unfold arrivals at inside
      dsimp only at inside
      split at inside
      · exact .inl ⟨_, gave_of_mem_givenBy inside⟩
      · exact .inr (read_of_mem_pendingReadings inside)
  | relay id params => exact absurd inside List.not_mem_nil
  | store target => exact absurd inside List.not_mem_nil
  | fanout sinks => exact absurd inside List.not_mem_nil
  | sink id => exact absurd inside List.not_mem_nil

/-- What is handed to sinks is the active value, one hop on. -/
theorem delivered_of_mem_deliveries {event : Event}
    (inside : event ∈ deliveries network w r step) :
    ∃ value outcomes, r.top? = some value ∧ event = .delivered r.next value.forward outcomes := by
  unfold deliveries at inside
  split at inside
  · rename_i value active
    split at inside
    · exact ⟨value, _, active, List.mem_singleton.mp inside⟩
    · exact absurd inside List.not_mem_nil
  · rename_i value active
    split at inside
    · exact ⟨value, _, active, List.mem_singleton.mp inside⟩
    · exact absurd inside List.not_mem_nil
  · exact absurd inside List.not_mem_nil

/-- A step goes well without an error, or it is given up. -/
theorem passed_or_stopped_of_mem_verdict {turn : Turn} {i : Nat} {event : Event}
    (inside : event ∈ turn.verdict i) :
    (event = .passed i ∧ ∃ after entry, turn = .passed after entry ∧ entry.error = none) ∨
      ∃ failure, event = .stopped i failure := by
  cases turn with
  | passed after entry =>
      unfold Turn.verdict at inside
      dsimp only at inside
      split at inside
      · rename_i clean
        exact .inl ⟨List.mem_singleton.mp inside, after, entry, rfl, Option.isNone_iff_eq_none.mp clean⟩
      · exact absurd inside List.not_mem_nil
  | failed after fault => exact .inr ⟨_, List.mem_singleton.mp inside⟩
  | crashed after mishap => exact .inr ⟨_, List.mem_singleton.mp inside⟩
  | stalled => exact absurd inside List.not_mem_nil
  | partly after => exact absurd inside List.not_mem_nil

/-- The four parts of a report. -/
theorem mem_report {event : Event} :
    event ∈ report network w r ↔
      ∃ step, r.chain.steps[r.next]? = some step ∧
        (event ∈ arrivals network w r step ∨ event ∈ deliveries network w r step ∨
          (event = .refused r.next ∧ refuses network w r step = true) ∨
          event ∈ (runStep network w r step).2.verdict r.next) := by
  unfold report
  cases at_ : r.chain.steps[r.next]? with
  | none => simp
  | some step => simp [and_comm]

/-- Events that bring no value, tell of no sinks and of no refusal tell how a turn has ended. -/
theorem mem_verdict_of_mem_report {event : Event} (inside : event ∈ report network w r)
    (brings : event.value? = none) (hands : ∀ i value outcomes, event ≠ .delivered i value outcomes)
    (refuses : ∀ i, event ≠ .refused i) :
    ∃ step, r.chain.steps[r.next]? = some step ∧
      event ∈ (runStep network w r step).2.verdict r.next := by
  obtain ⟨step, at_, arrived | delivered | ⟨other, _⟩ | judged⟩ := mem_report.mp inside
  · rcases gave_or_read_of_mem_arrivals arrived with ⟨_, _, rfl⟩ | ⟨_, _, rfl⟩
    · cases brings
    · cases brings
  · obtain ⟨_, _, _, other⟩ := delivered_of_mem_deliveries delivered
    exact absurd other (hands _ _ _)
  · exact absurd other (refuses _)
  · exact ⟨step, at_, judged⟩

theorem entrants_report (at_ : r.chain.steps[r.next]? = some step) :
    entrants (report network w r) = entrants (arrivals network w r step) := by
  have none : entrants (deliveries network w r step) = ∅ ∧
      entrants ((if refuses network w r step then [.refused r.next] else []) ++
        (runStep network w r step).2.verdict r.next) = ∅ := by
    constructor
    · refine entrants_eq_empty fun event inside => ?_
      obtain ⟨_, _, _, rfl⟩ := delivered_of_mem_deliveries inside
      rfl
    · refine entrants_eq_empty fun event inside => ?_
      rcases List.mem_append.mp inside with refused | judged
      · split at refused
        · rw [List.mem_singleton.mp refused]
          rfl
        · exact absurd refused List.not_mem_nil
      · rcases passed_or_stopped_of_mem_verdict judged with ⟨rfl, _⟩ | ⟨_, rfl⟩
        · rfl
        · rfl
  unfold report
  rw [at_]
  simp only [entrants_append, none, SortedSet.union_empty]

/-- A report tells only of the active value that it is handed to sinks. -/
theorem delivered_of_mem_report {i : Nat} {value : Value}
    {outcomes : List (Except Fault SinkResult)}
    (inside : .delivered i value outcomes ∈ report network w r) :
    i = r.next ∧ ∃ step active, r.chain.steps[r.next]? = some step ∧ r.top? = some active ∧
      value = active.forward ∧ .delivered i value outcomes ∈ deliveries network w r step := by
  obtain ⟨step, at_, arrived | delivered | ⟨other, _⟩ | judged⟩ := mem_report.mp inside
  · rcases gave_or_read_of_mem_arrivals arrived with ⟨_, _, other⟩ | ⟨_, _, other⟩
    · exact nomatch other
    · exact nomatch other
  · obtain ⟨active, _, top, same⟩ := delivered_of_mem_deliveries delivered
    obtain ⟨here, forwarded, _⟩ := Event.delivered.inj same
    exact ⟨here, step, active, at_, top, forwarded, delivered⟩
  · exact nomatch other
  · rcases passed_or_stopped_of_mem_verdict judged with ⟨other, _⟩ | ⟨_, other⟩
    · exact nomatch other
    · exact nomatch other

/-- A report tells that a step was done if that is how its turn ended. -/
theorem passed_of_mem_report {i : Nat} (inside : .passed i ∈ report network w r) :
    i = r.next ∧ ∃ step after entry, r.chain.steps[r.next]? = some step ∧
      (runStep network w r step).2 = .passed after entry ∧ entry.error = none := by
  obtain ⟨step, at_, judged⟩ := mem_verdict_of_mem_report inside rfl nofun nofun
  rcases passed_or_stopped_of_mem_verdict judged with ⟨here, after, entry, turn, clean⟩ | ⟨_, other⟩
  · exact ⟨Event.passed.inj here, step, after, entry, at_, turn, clean⟩
  · exact nomatch other

end TaintFlow.Run
