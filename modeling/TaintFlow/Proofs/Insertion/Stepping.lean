import Mathlib.Data.List.Forall2
import TaintFlow.Proofs.Insertion.Likeness
import TaintFlow.Proofs.Run.Journal

/-!
# Turns beside each other

A run of a chain with an inserted step stands beside a run of the chain without it: it
has the same active values, but counts its steps differently and has written down more.
Beside each other both take the same turns: `advance_beside`.
-/

namespace TaintFlow

/-! ## Steps that share no state -/

/-- The keys that a step does not write. -/
def Step.Leaves (x : Step) (scopes : RunScopes) (p : Partition) (key : String) : Prop :=
  ∀ ref ∈ x.writes, ¬ scopes.Means ref p key

/-- What a chain calls and names shares no state with a step: the operators keep away from the
store, the chain names none of the keys that the step writes, and what the chain calls of some
sinks keeps no state. -/
structure Chain.Separate (network : Network) (hidden : List String) (x : Step) (c : Chain) :
    Prop where
  operators : ∀ id ∈ c.operators, ∀ operator, network.engine.operators.find? id = some operator →
    operator.Aloof
  keys : ∀ step ∈ c.steps, ∀ ref ∈ step.storeRefs, ref ∉ x.writes
  sinks : ∀ id ∈ c.sinks, id ∈ hidden → ∀ s, network.sinks.find? id = some s →
    s.capability.Forgetful

/-- The same of a single step. -/
structure Step.Separate (network : Network) (hidden : List String) (x step : Step) : Prop where
  operator : ∀ id, step.operator? = some id → ∀ operator,
    network.engine.operators.find? id = some operator → operator.Aloof
  keys : ∀ ref ∈ step.storeRefs, ref ∉ x.writes
  sinks : ∀ id ∈ step.sinks, id ∈ hidden → ∀ s, network.sinks.find? id = some s →
    s.capability.Forgetful

theorem Chain.Separate.step {network : Network} {hidden : List String} {c : Chain} {x step : Step}
    (separate : Separate network hidden x c) (inside : step ∈ c.steps) :
    Step.Separate network hidden x step where
  operator id applies := separate.operators id (List.mem_filterMap.mpr ⟨step, inside, applies⟩)
  keys := separate.keys step inside
  sinks id named := separate.sinks id (List.mem_flatMap.mpr ⟨step, inside, named⟩)

namespace Run

/-! ## Runs beside each other -/

/-- The run with the chain, the place in it and the records of another one. -/
def beside (r own : Run) : Run :=
  { r with
    chain := own.chain
    next := own.next
    written := own.written
    result := { r.result with
      runId := own.result.runId
      chain := own.result.chain
      expected := own.result.expected
      trace := own.result.trace
      sinkResults := own.result.sinkResults
      error := own.result.error } }

/-- What a run keeps for itself. -/
def records (r : Run) : Chain × Nat × RunScopes × Assoc StoreRef LabelSet × List StepTrace ×
    Option ErrorRecord :=
  (r.chain, r.next, r.scopes, r.written, r.result.trace, r.result.error)

/-- A run and what a run of the chain with the inserted step keeps for itself: but for that step,
both have written down the same. -/
structure Akin (c c' : Chain) (k : Nat) (x : Step) (scopes : RunScopes) (r own : Run) : Prop where
  chain : r.chain = c
  chain' : own.chain = c'
  scopes : r.scopes = scopes
  written : ∀ ref, ref ∉ x.writes → own.written.find? ref = r.written.find? ref
  trace : List.Forall₂ (StepTrace.Like k) r.result.trace
    (own.result.trace.filter fun shown => shown.index ≠ k)
  error : own.result.error.map ErrorRecord.unplaced = r.result.error.map ErrorRecord.unplaced

/-- Both are at the same step of the original chain. -/
structure Level (c c' : Chain) (k : Nat) (x : Step) (scopes : RunScopes) (r own : Run) : Prop
    extends Akin c c' k x scopes r own where
  next : own.next = Chain.shifted k r.next

/-- Both have come equally far, or the inserted step is due in one of them. -/
inductive Reached (c c' : Chain) (k : Nat) (x : Step) (scopes : RunScopes) (r own : Run) : Prop
  | level (level : Level c c' k x scopes r own)
  | due (akin : Akin c c' k x scopes r own) (next : r.next = k) (next' : own.next = k)
      (going : r.state.isTerminal = false)

/-- What becomes of a turn in both. -/
inductive Turn.Like (c c' : Chain) (k : Nat) (x : Step) (scopes : RunScopes) : Turn → Turn → Prop
  | stalled : Like c c' k x scopes .stalled .stalled
  | partly {r own : Run} (level : Level c c' k x scopes r own) :
      Like c c' k x scopes (.partly r) (.partly (r.beside own))
  | failed {r own : Run} {fault other : Fault} (level : Level c c' k x scopes r own)
      (like : fault.Like other) :
      Like c c' k x scopes (.failed r fault) (.failed (r.beside own) other)
  | crashed {r own : Run} (level : Level c c' k x scopes r own) (mishap : Mishap) :
      Like c c' k x scopes (.crashed r mishap) (.crashed (r.beside own) mishap)
  | passed {r own : Run} {shown other : StepTrace} (level : Level c c' k x scopes r own)
      (like : shown.Like k other) :
      Like c c' k x scopes (.passed r shown) (.passed (r.beside own) other)

variable {network : Network} {hidden : List String} {c c' : Chain} {k : Nat} {x step : Step}
  {scopes : RunScopes}
  {r r₁ own : Run} {w w' : World}

theorem Akin.of_records (akin : Akin c c' k x scopes r own) (same : r₁.records = r.records) :
    Akin c c' k x scopes r₁ own := by
  unfold records at same
  simp only [Prod.mk.injEq] at same
  obtain ⟨chain, next, place, written, trace, error⟩ := same
  refine ⟨chain.trans akin.chain, akin.chain', place.trans akin.scopes, ?_, ?_, ?_⟩
  · rw [written]
    exact akin.written
  · rw [trace]
    exact akin.trace
  · rw [error]
    exact akin.error

/-- It does not matter for what has been written down where in their chains they are. -/
theorem Akin.moved (akin : Akin c c' k x scopes r own) (n m : Nat) :
    Akin c c' k x scopes { r with next := n } { own with next := m } :=
  ⟨akin.chain, akin.chain', akin.scopes, akin.written, akin.trace, akin.error⟩

namespace Level

variable (level : Level c c' k x scopes r own)
include level

theorem of_records (same : r₁.records = r.records) : Level c c' k x scopes r₁ own where
  toAkin := level.toAkin.of_records same
  next := level.next.trans (congrArg (Chain.shifted k) (congrArg (·.2.1) same).symm)

theorem entry (step : Step) (outcome : HopOutcome) :
    (r.entry step outcome).Like k ((r.beside own).entry step outcome) :=
  ⟨level.next, rfl, rfl, rfl, rfl, rfl, rfl⟩

/-- What is written down of a value that has been handed on. -/
theorem shown (step : Step) (labels : LabelSet) (hops : Nat) (sinkResults : List SinkResult) :
    StepTrace.Like k
      { index := r.next, step, labels, hops, outcome := .preserved, sinkResults }
      { index := own.next, step, labels, hops, outcome := .preserved, sinkResults } :=
  ⟨level.next, rfl, rfl, rfl, rfl, rfl, rfl⟩

theorem finish {state : RunState} {error error' : Option ErrorRecord}
    (same : error'.map ErrorRecord.unplaced = error.map ErrorRecord.unplaced) :
    Level c c' k x scopes (r.finish state error) (own.finish state error') where
  chain := level.chain
  chain' := level.chain'
  scopes := level.scopes
  written := level.written
  trace := level.trace
  error := same
  next := level.next

theorem heard (results : List SinkResult) :
    Level c c' k x scopes (r.heard results) (own.heard results) :=
  ⟨⟨level.chain, level.chain', level.scopes, level.written, level.trace, level.error⟩, level.next⟩

theorem expected (inserted : c.Inserted c' k x) :
    (r.beside own).chain.expected = r.chain.expected := by
  show own.chain.expected = _
  rw [level.chain, level.chain', inserted.expected]

theorem atLast (inserted : c.Inserted c' k x) : (r.beside own).atLast = r.atLast := by
  show decide (own.next = own.chain.lastIndex) = decide (r.next = r.chain.lastIndex)
  rw [level.chain, level.chain', level.next]
  exact decide_eq_decide.mpr inserted.shifted_eq_lastIndex

/-- What is written down of a step is written down in both. -/
theorem record {shown other : StepTrace} (like : shown.Like k other) :
    Level c c' k x scopes (r.record shown) (own.record other) where
  chain := level.chain
  chain' := level.chain'
  scopes := level.scopes
  written := level.written
  trace := by
    have kept : (other.index ≠ k) = True := eq_true (like.index ▸ Chain.shifted_ne k shown.index)
    show List.Forall₂ _ (r.result.trace ++ [shown])
      ((own.result.trace ++ [other]).filter fun shown => shown.index ≠ k)
    rw [List.filter_append, List.filter_cons]
    simp only [kept, decide_true, if_true, List.filter_nil]
    exact List.rel_append level.trace (.cons like .nil)
  error := level.error
  next := level.next

end Level

/-- What two turns in two worlds come to. -/
def Together (hidden : List String) (c c' : Chain) (k : Nat) (x : Step) (scopes : RunScopes)
    (one other : World × Turn) : Prop :=
  World.Beside hidden (x.Leaves scopes) one.1 other.1 ∧ Turn.Like c c' k x scopes one.2 other.2

/-- Where two turns lead. -/
inductive Comes (hidden : List String) (c c' : Chain) (k : Nat) (x : Step) (scopes : RunScopes) :
    Option (World × Run) → Option (World × Run) → Prop
  | nowhere : Comes hidden c c' k x scopes none none
  | somewhere {one other : World × Run} {own : Run}
      (beside_ : World.Beside hidden (x.Leaves scopes) one.1 other.1)
      (same : other.2 = one.2.beside own) (reached : Reached c c' k x scopes one.2 own) :
      Comes hidden c c' k x scopes (some one) (some other)

/-! ## Reading the store -/

/-- Failures that are alike. -/
inductive FailsLike : Failure → Failure → Prop
  | fault {fault other : Fault} (like : fault.Like other) : FailsLike (.fault fault) (.fault other)
  | same (failure : Failure) : FailsLike failure failure

theorem FailsLike.stopped {failure other : Failure} (level : Level c c' k x scopes r own)
    (like : FailsLike failure other) :
    Turn.Like c c' k x scopes (r.stopped failure) ((r.beside own).stopped other) := by
  cases like with
  | fault like => exact .failed level like
  | same =>
      cases failure with
      | fault fault => exact .failed level (.refl fault)
      | mishap mishap => exact .crashed level mishap
      | invalid what => exact .crashed level _

/-- What is read beside each other. -/
inductive ReadLike (c c' : Chain) (k : Nat) (x : Step) (scopes : RunScopes) (own : Run) :
    Except Failure (Value × Run) → Except Failure (Value × Run) → Prop
  | failed {failure other : Failure} (like : FailsLike failure other) :
      ReadLike c c' k x scopes own (.error failure) (.error other)
  | came {r : Run} (value : Value) (level : Level c c' k x scopes r own) :
      ReadLike c c' k x scopes own (.ok (value, r)) (.ok (value, r.beside own))

/-- A value is read beside another one from a key that the inserted step does not write. -/
theorem load_like (network : Network) (level : Level c c' k x scopes r own) {store store' : Store}
    (agree : Store.Agree (x.Leaves scopes) store store') {ref : StoreRef}
    (foreign : ref ∉ x.writes) :
    ReadLike c c' k x scopes own (load network store r ref)
      (load network store' (r.beside own) ref) := by
  unfold load
  have place : (r.beside own).scopes = r.scopes := rfl
  rw [place]
  cases there : ref.scope.partition (r.scopes.idFor ref.scope) with
  | error mishap => exact .failed (.same _)
  | ok p =>
      have leaves : x.Leaves scopes p ref.key := by
        rintro other writes ⟨there', key⟩
        exact foreign (ref_eq_of_place there' (level.scopes ▸ there) key ▸ writes)
      have read : readSlot store p ref.key = readSlot store' p ref.key := by
        unfold readSlot
        rw [agree p ref.key leaves]
      have written : (r.beside own).written.find? ref = r.written.find? ref :=
        level.written ref foreign
      dsimp only [Except.mapError, bind, Except.bind]
      rw [← read, written]
      cases readSlot store p ref.key with
      | error fault => exact .failed (.same _)
      | ok value =>
          have entered : Level c c' k x scopes (r.entered value.labels) own := level.of_records rfl
          dsimp only
          cases r.written.find? ref with
          | none => exact .came value entered
          | some labels =>
              dsimp only
              cases network.verifyLoads with
              | false => exact .came value entered
              | true =>
                  unfold ensureLabels
                  dsimp only
                  cases (missingLabels labels value).isEmpty with
                  | true => exact .came value entered
                  | false => exact .failed (.fault rfl)

/-- What several readings come to beside each other. -/
inductive ReadsLike (c c' : Chain) (k : Nat) (x : Step) (scopes : RunScopes) (own : Run) :
    Except (Failure × Run) (List Value × Run) → Except (Failure × Run) (List Value × Run) → Prop
  | failed {r : Run} {failure other : Failure} (like : FailsLike failure other)
      (level : Level c c' k x scopes r own) :
      ReadsLike c c' k x scopes own (.error (failure, r)) (.error (other, r.beside own))
  | came {r : Run} (values : List Value) (level : Level c c' k x scopes r own) :
      ReadsLike c c' k x scopes own (.ok (values, r)) (.ok (values, r.beside own))

theorem loadAll_like (network : Network) (level : Level c c' k x scopes r own)
    {store store' : Store} (agree : Store.Agree (x.Leaves scopes) store store')
    {refs : List StoreRef}
    (foreign : ∀ ref ∈ refs, ref ∉ x.writes) (values : List Value) :
    ReadsLike c c' k x scopes own (loadAll network store r refs values)
      (loadAll network store' (r.beside own) refs values) := by
  induction refs generalizing r values with
  | nil => exact .came values level
  | cons ref rest ih =>
      unfold loadAll
      have first := load_like network level agree (foreign ref List.mem_cons_self)
      generalize load network store r ref = one at first
      generalize load network store' (r.beside own) ref = other at first
      cases first with
      | failed like => exact .failed like level
      | came value level₁ =>
          exact ih level₁ (fun one inRest => foreign one (List.mem_cons_of_mem _ inRest)) _

theorem mergeInputs_like (network : Network) (level : Level c c' k x scopes r own)
    {store store' : Store} (agree : Store.Agree (x.Leaves scopes) store store')
    {refs : List StoreRef}
    (foreign : ∀ ref ∈ refs, ref ∉ x.writes) :
    ReadsLike c c' k x scopes own (mergeInputs network store r refs)
      (mergeInputs network store' (r.beside own) refs) := by
  unfold mergeInputs
  have loaded : (r.beside own).loaded = r.loaded := rfl
  have gathered : (r.beside own).gathered = r.gathered := rfl
  rw [loaded, gathered]
  cases r.loaded with
  | true => exact .came _ level
  | false =>
      have read := loadAll_like network level agree foreign r.gathered
      generalize loadAll network store r refs r.gathered = one at read
      generalize loadAll network store' (r.beside own) refs r.gathered = other at read
      cases read with
      | failed like level₁ => exact .failed like level₁
      | came values level₁ => exact .came values (level₁.of_records rfl)

/-! ## Several sinks at once -/

theorem foldl_callNext_beside {r r' : Run} (timeout : r'.timeout = r.timeout) (value : Value)
    {sinks : List String} (spared : ∀ id ∈ sinks, id ∈ hidden → ∀ s,
      network.sinks.find? id = some s → s.capability.Forgetful)
    {before before' : List WholeCall × World}
    (same : before.1.map WholeCall.outcome = before'.1.map WholeCall.outcome)
    (beside_ : World.Beside hidden (x.Leaves scopes) before.2 before'.2) :
    (sinks.foldl (callNext network r value) before).1.map WholeCall.outcome =
        (sinks.foldl (callNext network r' value) before').1.map WholeCall.outcome ∧
      World.Beside hidden (x.Leaves scopes) (sinks.foldl (callNext network r value) before).2
        (sinks.foldl (callNext network r' value) before').2 := by
  induction sinks generalizing before before' with
  | nil => exact ⟨same, beside_⟩
  | cons id rest ih =>
      have quiet : World.Beside hidden (x.Leaves scopes) { before.2 with notices := [] }
        { before'.2 with notices := [] } := ⟨beside_.store, beside_.calls⟩
      obtain ⟨said, after⟩ := quiet.callSink (spared id List.mem_cons_self) r.location
        r'.location value r.timeout
      have others : ∀ one ∈ rest, one ∈ hidden → ∀ s, network.sinks.find? one = some s →
          s.capability.Forgetful := fun one inRest => spared one (List.mem_cons_of_mem _ inRest)
      refine ih others ?_ ?_
      · unfold callNext
        dsimp only
        rw [List.map_append, List.map_append, same, timeout]
        exact congrArg (fun outcome => before'.1.map WholeCall.outcome ++ [outcome]) said
      · unfold callNext
        dsimp only
        rw [timeout]
        exact after

/-- Sinks that are called at once say the same. -/
theorem callSinks_beside {r r' : Run} (timeout : r'.timeout = r.timeout) (value : Value)
    {sinks : List String} (spared : ∀ id ∈ sinks, id ∈ hidden → ∀ s,
      network.sinks.find? id = some s → s.capability.Forgetful)
    (beside_ : World.Beside hidden (x.Leaves scopes) w w') :
    (callSinks network w r value sinks).1 = (callSinks network w' r' value sinks).1 ∧
      World.Beside hidden (x.Leaves scopes) (callSinks network w r value sinks).2
        (callSinks network w' r' value sinks).2 := by
  have folded := @foldl_callNext_beside network hidden x scopes r r' timeout value sinks spared
    ([], w) ([], w') rfl beside_
  exact ⟨folded.1, folded.2.store, folded.2.calls⟩

theorem fanoutOutcomes_beside (r r' : Run) (timeout : r'.timeout = r.timeout)
    (calls : r'.calls = r.calls) (value : Value) {sinks : List String}
    (spared : ∀ id ∈ sinks, id ∈ hidden → ∀ s, network.sinks.find? id = some s →
      s.capability.Forgetful) (beside_ : World.Beside hidden (x.Leaves scopes) w w') :
    ∃ outcomes w₁ w₁',
      (if r.calls.isEmpty then callSinks network w r value sinks
        else (r.calls.map SinkCall.outcome?, w)) = (outcomes, w₁) ∧
      (if r'.calls.isEmpty then callSinks network w' r' value sinks
        else (r'.calls.map SinkCall.outcome?, w')) = (outcomes, w₁') ∧
      World.Beside hidden (x.Leaves scopes) w₁ w₁' := by
  rw [calls]
  split
  · obtain ⟨said, after⟩ := callSinks_beside timeout value spared beside_
    exact ⟨(callSinks network w r value sinks).1, (callSinks network w r value sinks).2,
      (callSinks network w' r' value sinks).2, rfl, Prod.ext said.symm rfl, after⟩
  · exact ⟨_, _, _, rfl, rfl, beside_⟩

/-! ## The steps of the original chain -/

/-- A run is at the end of its steps if the other is. -/
theorem exhaust_reached (inserted : c.Inserted c' k x) (reached : Reached c c' k x scopes r own) :
    ∃ own', exhaust (r.beside own) = (exhaust r).beside own' ∧
      Reached c c' k x scopes (exhaust r) own' := by
  have state : (r.beside own).state = r.state := rfl
  have before := inserted.beforeLast
  cases reached with
  | level level =>
      have ended : own.chain.steps.length ≤ own.next ↔ r.chain.steps.length ≤ r.next := by
        rw [level.chain, level.chain', level.next]
        exact inserted.length_le_shifted
      unfold exhaust
      rw [state]
      by_cases exhausted : r.state = .running ∧ r.chain.steps.length ≤ r.next
      · rw [if_pos exhausted, if_pos ⟨exhausted.1, ended.mpr exhausted.2⟩]
        exact ⟨own.finish .broken (some (Fault.record ⟨.noSinkReached,
          some own.chain.steps.length⟩)), rfl, .level (level.finish rfl)⟩
      · rw [if_neg exhausted, if_neg fun both => exhausted ⟨both.1, ended.mp both.2⟩]
        exact ⟨own, rfl, .level level⟩
  | due akin next next' going =>
      have notEnd : ¬ r.chain.steps.length ≤ r.next := by
        rw [akin.chain, next]
        omega
      have notEnd' : ¬ own.chain.steps.length ≤ own.next := by
        rw [akin.chain', next', inserted.length_eq]
        omega
      rw [exhaust_of_not_end r fun both => notEnd both.2,
        exhaust_of_not_end (r.beside own) fun both => notEnd' both.2]
      exact ⟨own, rfl, .due akin next next' going⟩

section

variable (beside_ : World.Beside hidden (x.Leaves scopes) w w')
  (level : Level c c' k x scopes r own)
include beside_ level

theorem runSource_together (id : String) :
    Together hidden c c' k x scopes (runSource network w r step id)
      (runSource network w' (r.beside own) step id) := by
  obtain ⟨said, after⟩ := beside_.callSource network r.location
    (r.beside own).location id r.context r.timeout
  obtain ⟨outcome, w₁, w₁', one, other⟩ := outcome_cases said
  rw [one, other] at after
  have other : w'.callSource network (r.beside own).location id (r.beside own).context
    (r.beside own).timeout = (outcome, w₁') := other
  unfold runSource
  rw [one, other]
  match outcome with
  | none => exact ⟨after, .stalled⟩
  | some (.error fault) => exact ⟨after, .failed level (.refl fault)⟩
  | some (.ok value) =>
      have entered : Level c c' k x scopes ((r.entered value.labels).push value) own :=
        level.of_records rfl
      have passes := Turn.Like.passed entered (entered.entry step .introduced)
      exact ⟨after, passes⟩

theorem runRelay_together {id : String} (params : Params)
    (aloof : ∀ operator, network.engine.operators.find? id = some operator → operator.Aloof) :
    Together hidden c c' k x scopes (runRelay network w r step id params)
      (runRelay network w' (r.beside own) step id params) := by
  have held : (r.beside own).stack = r.stack := rfl
  unfold runRelay
  rw [held]
  cases network.engine.get id with
  | error fault => exact ⟨beside_, .failed level (.refl fault)⟩
  | ok operator =>
      dsimp only
      split
      · exact ⟨beside_, .failed level rfl⟩
      · obtain ⟨alike, after⟩ := beside_.applyOperator aloof r.location (r.beside own).location
          (r.stack.drop (r.stack.length - operator.arity.getD r.stack.length)) params
            (some r.next) (some (r.beside own).next)
        generalize w.applyOperator network r.location id _ params _ = one at alike after
        generalize w'.applyOperator network (r.beside own).location id _ params _ = other
          at alike after
        obtain ⟨outcome, w₁⟩ := one
        obtain ⟨outcome', w₁'⟩ := other
        cases alike with
        | stalled => exact ⟨after, .stalled⟩
        | failed like => exact ⟨after, .failed level like⟩
        | came output =>
            have collapsed : Level c c' k x scopes
                (r.collapse (operator.arity.getD r.stack.length) output) own := level.of_records rfl
            have passes := Turn.Like.passed collapsed (collapsed.entry step
              (classify (r.youngest (operator.arity.getD r.stack.length)) output))
            exact ⟨after, passes⟩

theorem runLoad_together {origin : StoreRef} (foreign : origin ∉ x.writes) :
    Together hidden c c' k x scopes (runLoad network w r step origin)
      (runLoad network w' (r.beside own) step origin) := by
  unfold runLoad
  have read := load_like network level beside_.store foreign
  generalize load network w.store r origin = one at read
  generalize load network w'.store (r.beside own) origin = other at read
  cases read with
  | failed like => exact ⟨beside_, like.stopped level⟩
  | @came r₁ value level₁ =>
      have pushed : Level c c' k x scopes (r₁.push value) own := level₁.of_records rfl
      have passes := Turn.Like.passed pushed (pushed.entry step .introduced)
      exact ⟨beside_, passes⟩

theorem runMergeEnd_together {loads : List StoreRef} {id : String} (params : Params)
    (aloof : ∀ operator, network.engine.operators.find? id = some operator → operator.Aloof)
    (foreign : ∀ ref ∈ loads, ref ∉ x.writes) :
    Together hidden c c' k x scopes (runMergeEnd network w r step loads id params)
      (runMergeEnd network w' (r.beside own) step loads id params) := by
  unfold runMergeEnd
  have read := mergeInputs_like network level beside_.store foreign
  generalize mergeInputs network w.store r loads = one at read
  generalize mergeInputs network w'.store (r.beside own) loads = other at read
  cases read with
  | failed like level₁ => exact ⟨beside_, like.stopped level₁⟩
  | @came r₁ inputs level₁ =>
      obtain ⟨alike, after⟩ := beside_.applyOperator aloof r₁.location (r₁.beside own).location
        inputs params (some r₁.next) (some (r₁.beside own).next)
      dsimp only
      generalize w.applyOperator network r₁.location id _ params _ = one at alike after
      generalize w'.applyOperator network (r₁.beside own).location id _ params _ = other
        at alike after
      obtain ⟨outcome, w₁⟩ := one
      obtain ⟨outcome', w₁'⟩ := other
      cases alike with
      | stalled => exact ⟨after, .stalled⟩
      | failed like => exact ⟨after, .failed level₁ like⟩
      | came output =>
          have joined : Level c c' k x scopes (r₁.joined output) own := level₁.of_records rfl
          have passes := Turn.Like.passed joined (joined.entry step (classify inputs output))
          exact ⟨after, passes⟩

theorem runMerge_together (sources : List String) {loads : List StoreRef} {id : String}
    (params : Params)
    (aloof : ∀ operator, network.engine.operators.find? id = some operator → operator.Aloof)
    (foreign : ∀ ref ∈ loads, ref ∉ x.writes) :
    Together hidden c c' k x scopes (runMerge network w r step sources loads id params)
      (runMerge network w' (r.beside own) step sources loads id params) := by
  have gathered : (r.beside own).gathered = r.gathered := rfl
  unfold runMerge
  rw [gathered]
  cases sources[r.gathered.length]? with
  | none => exact runMergeEnd_together beside_ level params aloof foreign
  | some source =>
      obtain ⟨said, after⟩ := beside_.callSource network r.location
        (r.beside own).location source r.context r.timeout
      obtain ⟨outcome, w₁, w₁', one, other⟩ := outcome_cases said
      rw [one, other] at after
      have other : w'.callSource network (r.beside own).location source (r.beside own).context
        (r.beside own).timeout = (outcome, w₁') := other
      dsimp only
      rw [one, other]
      match outcome with
      | none => exact ⟨after, .stalled⟩
      | some (.error fault) => exact ⟨after, .failed level (.refl fault)⟩
      | some (.ok value) =>
          have collected : Level c c' k x scopes ((r.entered value.labels).collect value) own :=
            level.of_records rfl
          have partly := Turn.Like.partly collected
          exact ⟨after, partly⟩

/-- The verdict of the last sinks is the same. -/
theorem conclude_together {shown other : StepTrace} (like : shown.Like k other)
    (delivered : Value) :
    Together hidden c c' k x scopes (conclude w r shown delivered)
      (conclude w' (r.beside own) other delivered) := by
  have origins : (r.beside own).origins = r.origins := rfl
  unfold conclude
  rw [origins]
  dsimp only
  split
  · exact ⟨beside_, .passed (level.finish rfl) like⟩
  · refine ⟨⟨beside_.store, beside_.calls⟩, .passed (level.finish ?_)
      { like with error := ?_ }⟩
    · unfold ErrorRecord.unplaced
      rw [Option.map_some, Option.map_some, like.sinkResults]
    · unfold ErrorRecord.unplaced
      rw [Option.map_some, Option.map_some, like.sinkResults]

theorem runSink_together (inserted : c.Inserted c' k x) {id : String}
    (spared : id ∈ hidden → ∀ s, network.sinks.find? id = some s → s.capability.Forgetful) :
    Together hidden c c' k x scopes (runSink network w r step id)
      (runSink network w' (r.beside own) step id) := by
  have top : (r.beside own).top? = r.top? := rfl
  unfold runSink
  rw [top]
  cases r.top? with
  | none => exact ⟨beside_, .failed level rfl⟩
  | some value =>
      obtain ⟨said, after⟩ := beside_.callSink spared r.location (r.beside own).location
        value.forward r.timeout
      obtain ⟨outcome, w₁, w₁', one, other⟩ := outcome_cases said
      rw [one, other] at after
      have other : w'.callSink network (r.beside own).location id value.forward
        (r.beside own).timeout = (outcome, w₁') := other
      dsimp only
      rw [one, other]
      match outcome with
      | none => exact ⟨after, .stalled⟩
      | some (.error fault) => exact ⟨after, .failed level (.refl fault)⟩
      | some (.ok result) =>
          have heard : Level c c' k x scopes { r.heard [result] with
              result := { (r.heard [result]).result with
                final := result.raw
                categoryMatch := some (matchesCategory network r.chain.expected [id]) } }
              (own.heard [result]) := (level.heard [result]).of_records rfl
          dsimp only
          rw [show ((r.beside own).heard [result]).chain.expected = r.chain.expected from
            level.expected inserted]
          have shown := level.shown step result.labels result.hops [result]
          have concluded := conclude_together after heard shown value.forward
          exact concluded

theorem runStore_together (target : StoreRef) :
    Together hidden c c' k x scopes (runStore w r step target)
      (runStore w' (r.beside own) step target) := by
  have top : (r.beside own).top? = r.top? := rfl
  have place : (r.beside own).scopes = r.scopes := rfl
  unfold runStore
  rw [top, place]
  cases r.top? with
  | none => exact ⟨beside_, .failed level rfl⟩
  | some value =>
      dsimp only
      cases target.scope.partition (r.scopes.idFor target.scope) with
      | error mishap => exact ⟨beside_, .crashed level mishap⟩
      | ok p =>
          have stored : World.Beside hidden (x.Leaves scopes)
              (w.edit r.location (.put p target.key value.forward value.forward.hops))
              (w'.edit (r.beside own).location
                (.put p target.key value.forward value.forward.hops)) := by
            constructor
            · rw [World.edit_store, World.edit_store]
              exact beside_.store.apply _
            · intro owner
              rw [World.callsOf_of_calls (World.edit_calls ..),
                World.callsOf_of_calls (World.edit_calls ..)]
              exact beside_.calls owner
          have noted : Level c c' k x scopes (r.noted target value.forward.labels)
              (own.noted target value.forward.labels) := by
            refine ⟨⟨level.chain, level.chain', level.scopes, fun ref other => ?_, level.trace,
              level.error⟩, level.next⟩
            show (own.written.put target value.forward.labels).find? ref =
              (r.written.put target value.forward.labels).find? ref
            rw [Assoc.find?_put, Assoc.find?_put, level.written ref other]
          have shown := level.shown step value.forward.labels value.forward.hops []
          have passes := Turn.Like.passed noted shown
          exact ⟨stored, passes⟩

/-- Sinks that have been heard decide the same. -/
theorem decide_together {shown other : StepTrace} (like : shown.Like k other)
    (last : (r.beside own).atLast = r.atLast) (rejected : Option Fault)
    (results : List SinkResult) (delivered : Value) :
    Together hidden c c' k x scopes (decided w r shown results rejected delivered)
      (decided w' (r.beside own) other results rejected delivered) := by
  unfold decided
  cases rejected with
  | some fault =>
      let error : ErrorRecord := { fault with step := some r.next }.record
      let error' : ErrorRecord := { fault with step := some own.next }.record
      have same : (some error').map ErrorRecord.unplaced =
        (some error).map ErrorRecord.unplaced := rfl
      have failed : Level c c' k x scopes (r.finish .failed (some error))
        (own.finish .failed (some error')) := level.finish same
      have blamed : StepTrace.Like k { shown with error := some error }
        { other with error := some error' } := { like with error := same }
      have passes := Turn.Like.passed failed blamed
      exact ⟨⟨beside_.store, beside_.calls⟩, passes⟩
  | none =>
      dsimp only
      rw [last]
      split
      · exact conclude_together beside_ level like delivered
      · exact ⟨beside_, .passed level like⟩

theorem runFanout_together (inserted : c.Inserted c' k x) {sinks : List String}
    (spared : ∀ id ∈ sinks, id ∈ hidden → ∀ s, network.sinks.find? id = some s →
      s.capability.Forgetful) :
    Together hidden c c' k x scopes (runFanout network w r step sinks)
      (runFanout network w' (r.beside own) step sinks) := by
  have top : (r.beside own).top? = r.top? := rfl
  rw [runFanout_eq, runFanout_eq, top]
  cases r.top? with
  | none => exact ⟨beside_, .failed level rfl⟩
  | some value =>
      obtain ⟨outcomes, w₁, w₁', one, other, after⟩ := fanoutOutcomes_beside r
        (r.beside own) rfl rfl value.forward spared beside_
      dsimp only
      rw [one, other]
      dsimp only
      cases outcomes.mapM id with
      | none => exact ⟨after, .stalled⟩
      | some outcomes =>
          have cleared : Level c c' k x scopes { r with calls := [] } own := level.of_records rfl
          dsimp only
          rcases gatherSinks outcomes with fault | ⟨results, rejected⟩
          · have fails := Turn.Like.failed cleared (.refl fault)
            exact ⟨after, fails⟩
          · have heard : Level c c' k x scopes (r.heardAll network sinks results)
                (own.heard results) := by
              unfold heardAll
              dsimp only
              split
              · exact (cleared.heard results).of_records rfl
              · exact cleared.heard results
            have same : (r.beside own).heardAll network sinks results =
                (r.heardAll network sinks results).beside (own.heard results) := by
              have last : (({ r with calls := [] } : Run).heard results).atLast = r.atLast := rfl
              have last' : (({ r.beside own with calls := [] } : Run).heard results).atLast =
                r.atLast := level.atLast inserted
              have expected : (({ r.beside own with calls := [] } : Run).heard
                results).chain.expected = r.chain.expected := level.expected inserted
              unfold heardAll
              dsimp only
              rw [last, last', expected]
              split <;> rfl
            have shown := level.shown step value.forward.labels value.forward.hops results
            dsimp only
            rw [same]
            exact decide_together after heard shown (heard.atLast inserted) rejected results
              value.forward

/-- A step of the original chain comes to the same. -/
theorem runStep_together (inserted : c.Inserted c' k x)
    (separate : Step.Separate network hidden x step) :
    Together hidden c c' k x scopes (runStep network w r step)
      (runStep network w' (r.beside own) step) := by
  cases step with
  | source id => exact runSource_together beside_ level id
  | relay id params => exact runRelay_together beside_ level params (separate.operator id rfl)
  | store target => exact runStore_together beside_ level target
  | load origin =>
      exact runLoad_together beside_ level (separate.keys origin List.mem_cons_self)
  | fanout sinks => exact runFanout_together beside_ level inserted separate.sinks
  | merge sources loads id params =>
      exact runMerge_together beside_ level sources params (separate.operator id rfl) separate.keys
  | sink id =>
      exact runSink_together beside_ level inserted (separate.sinks id List.mem_cons_self)

/-! ## After a turn -/

omit beside_ in
/-- A step that fails is written down alike. -/
theorem failureEntry_like {fault other : Fault} (like : fault.Like other) (step : Step) :
    (r.failureEntry step fault).Like k ((r.beside own).failureEntry step other) := by
  have same := like.record_atStep (some r.next) (some (r.beside own).next)
  unfold failureEntry
  rw [← like.kind]
  by_cases rejected : fault.kind = .sinkRejected
  · have placed : (fault.atStep (some r.next)).Like
      (other.atStep (some (r.beside own).next)) := like
    rw [if_pos rejected, if_pos rejected, ← placed.rejection rejected]
    exact ⟨level.next, rfl, rfl, rfl, rfl, rfl, same⟩
  · rw [if_neg rejected, if_neg rejected]
    exact ⟨level.next, rfl, rfl, rfl, rfl, rfl, same⟩

theorem fail_comes {fault other : Fault} (like : fault.Like other) (step : Step) :
    Comes hidden c c' k x scopes (some (fail w r step fault))
      (some (fail w' (r.beside own) step other)) := by
  have shown := failureEntry_like level like step
  have same := like.record_atStep (some r.next) (some own.next)
  have ended : Level c c' k x scopes (fail w r step fault).2
      (((own.heard (r.failureEntry step fault).sinkResults).record
        ((r.beside own).failureEntry step other)).finish (stateAfter fault)
          (some ((other.atStep (some own.next)).record (some own.next)))) :=
    ((level.heard (r.failureEntry step fault).sinkResults).record shown).finish same
  have state : stateAfter other = stateAfter fault := by
    unfold stateAfter
    rw [like.kind]
  have heard : ((r.beside own).failureEntry step other).sinkResults =
    (r.failureEntry step fault).sinkResults := shown.sinkResults
  refine .somewhere ⟨beside_.store, beside_.calls⟩ ?_ (.level ended)
  rw [fail_run, fail_run, state, heard]
  rfl

theorem crash_comes (mishap : Mishap) (step : Step) :
    Comes hidden c c' k x scopes (some (crash w r step mishap))
      (some (crash w' (r.beside own) step mishap)) := by
  let error (n : Nat) : ErrorRecord :=
    { kind := .internal, message := s!"{mishap.kind}: {mishap.text}", step := some n }
  have shown : (r.entry step .notApplicable (some (error r.next))).Like k
      ((r.beside own).entry step .notApplicable (some (error own.next))) :=
    ⟨level.next, rfl, rfl, rfl, rfl, rfl, rfl⟩
  have ended : Level c c' k x scopes
      ((r.record (r.entry step .notApplicable (some (error r.next)))).finish .failed
        (some (error r.next)))
      ((own.record ((r.beside own).entry step .notApplicable (some (error own.next)))).finish
        .failed (some (error own.next))) := (level.record shown).finish rfl
  exact .somewhere ⟨beside_.store, beside_.calls⟩ rfl (.level ended)

/-- Where a turn of a step of the original chain leads. -/
theorem afterTurn_comes (inserted : c.Inserted c' k x) {turn turn' : Turn}
    (like : Turn.Like c c' k x scopes turn turn') (step : Step) :
    Comes hidden c c' k x scopes (afterTurn step r w turn)
      (afterTurn step (r.beside own) w' turn') := by
  have counted : World.Beside hidden (x.Leaves scopes) (w.count (.steps step.kind))
    (w'.count (.steps step.kind)) := ⟨beside_.store, beside_.calls⟩
  cases like with
  | stalled => exact .nowhere
  | partly level₁ => exact .somewhere beside_ rfl (.level level₁)
  | failed level₁ like => exact fail_comes counted level₁ like step
  | crashed level₁ mishap => exact crash_comes counted level₁ mishap step
  | @passed r₁ own₁ shown other level₁ shownLike =>
      have recorded := level₁.record shownLike
      have state : (r₁.beside own₁).state = r₁.state := rfl
      have reached : Reached c c' k x scopes
          { r₁.record shown with next := if r₁.state.isTerminal then r.next else r.next + 1 }
          { own₁.record other with
            next := if r₁.state.isTerminal then own.next else own.next + 1 } := by
        have akin := fun n m => recorded.toAkin.moved n m
        cases ended : r₁.state.isTerminal with
        | true => exact .level ⟨akin _ _, level.next⟩
        | false =>
            by_cases due : r.next + 1 = k
            · have next : own.next + 1 = k := by
                rw [level.next, Chain.shifted_of_lt (by omega), due]
              exact .due (akin _ _) due next ended
            · refine .level ⟨akin _ _, ?_⟩
              show own.next + 1 = Chain.shifted k (r.next + 1)
              rw [level.next, Chain.shifted_succ due]
      obtain ⟨own₂, same, there⟩ := exhaust_reached inserted reached
      exact .somewhere counted same there

/-- **Beside each other both take the same turns**, as long as they are at a step of the original
chain. -/
theorem advance_beside (inserted : c.Inserted c' k x)
    (separate : Chain.Separate network hidden x c) :
    Comes hidden c c' k x scopes (advance network w r) (advance network w' (r.beside own)) := by
  have state : (r.beside own).state = r.state := rfl
  have same : (r.beside own).chain.steps[(r.beside own).next]? = r.chain.steps[r.next]? := by
    show own.chain.steps[own.next]? = _
    rw [level.chain, level.chain', level.next, inserted.getElem?_shifted]
  unfold advance
  rw [state, same]
  split
  · cases here : r.chain.steps[r.next]? with
    | none => exact .nowhere
    | some step =>
        have inside : step ∈ c.steps := List.mem_of_getElem? (level.chain ▸ here)
        obtain ⟨after, like⟩ := runStep_together beside_ level inserted (separate.step inside)
        exact afterTurn_comes after level inserted like step
  · exact .nowhere

end

end Run

end TaintFlow
