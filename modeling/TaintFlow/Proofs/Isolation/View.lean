import TaintFlow.Proofs.Run.Edits

/-!
# What a run sees of the world

If capabilities reply without regard to earlier calls and operators keep away
from the store, a run sees nothing of the world but what stands at the keys that
it loads.  The main statements are `runStep_congr`, for what a turn comes to, and
`advance_congr`, which adds what it changes.
-/

namespace TaintFlow

/-! ## Stores that show the same -/

/-- Two stores show the same at the keys of a view. -/
def Store.Agree (view : Partition → String → Prop) (s s' : Store) : Prop :=
  ∀ p key, view p key → s.slot? p key = s'.slot? p key

namespace Store.Agree

variable {view : Partition → String → Prop} {s s' s'' : Store}

theorem refl (view : Partition → String → Prop) (s : Store) : Agree view s s := fun _ _ _ => rfl

theorem symm (agree : Agree view s s') : Agree view s' s :=
  fun p key inView => (agree p key inView).symm

theorem trans (agree : Agree view s s') (more : Agree view s' s'') : Agree view s s'' :=
  fun p key inView => (agree p key inView).trans (more p key inView)

/-- Stores that show the same still do after the same edit. -/
theorem apply (agree : Agree view s s') (e : Store.Edit) : Agree view (s.apply e) (s'.apply e) := by
  intro p key inView
  rw [slot?_apply, slot?_apply, agree p key inView]

theorem applyAll (agree : Agree view s s') (edits : List Store.Edit) :
    Agree view (s.applyAll edits) (s'.applyAll edits) := by
  induction edits generalizing s s' with
  | nil => exact agree
  | cons e rest ih => exact ih (agree.apply e)

end Store.Agree

/-! ## What runs name -/

/-- The stored values that a step reads. -/
def Step.reads : Step → List StoreRef
  | .load origin => [origin]
  | .merge _ loads .. => loads
  | _ => []

/-- The stored values that a step writes. -/
def Step.writes : Step → List StoreRef
  | .store target => [target]
  | _ => []

theorem Step.reads_subset (step : Step) : step.reads ⊆ step.storeRefs := by
  intro ref reads
  cases step with
  | load | merge => exact reads
  | source | relay | store | fanout | sink => exact absurd reads List.not_mem_nil

theorem Step.writes_subset (step : Step) : step.writes ⊆ step.storeRefs := by
  intro ref writes
  cases step with
  | store => exact writes
  | source | relay | load | merge | fanout | sink => exact absurd writes List.not_mem_nil

/-- A key in a partition that a run means by a reference. -/
def RunScopes.Means (scopes : RunScopes) (ref : StoreRef) (p : Partition) (key : String) : Prop :=
  ref.scope.partition (scopes.idFor ref.scope) = .ok p ∧ ref.key = key

/-- A run of a chain may read this key. -/
def Chain.Reads (c : Chain) (scopes : RunScopes) (p : Partition) (key : String) : Prop :=
  ∃ step ∈ c.steps, ∃ ref ∈ step.reads, scopes.Means ref p key

/-- A run of a chain may write this key. -/
def Chain.Writes (c : Chain) (scopes : RunScopes) (p : Partition) (key : String) : Prop :=
  ∃ step ∈ c.steps, ∃ ref ∈ step.writes, scopes.Means ref p key

/-! ## Components without a state -/

/-- The capability replies without regard to earlier calls. -/
def Capability.Forgetful (capability : Capability) : Prop :=
  ∀ history argument, capability.respond history argument = capability.respond [] argument

/-- The operator neither reads the store nor edits it. -/
def Operator.Aloof (operator : Operator) : Prop :=
  ∀ inputs params store, operator.call inputs params store = operator.call inputs params {} ∧
    (operator.call inputs params store).edits = []

/-- Everything that a step calls is without a state. -/
structure Step.Stateless (network : Network) (step : Step) : Prop where
  sources : ∀ id ∈ step.sources, ∀ s, network.sources.find? id = some s → s.capability.Forgetful
  sinks : ∀ id ∈ step.sinks, ∀ s, network.sinks.find? id = some s → s.capability.Forgetful
  operator : ∀ id, step.operator? = some id →
    ∀ operator, network.engine.operators.find? id = some operator → operator.Aloof

/-- Everything that a chain calls is without a state. -/
def Chain.Stateless (network : Network) (c : Chain) : Prop :=
  ∀ step ∈ c.steps, step.Stateless network

theorem Chain.Stateless.untouching {network : Network} {c : Chain}
    (stateless : c.Stateless network) : Run.Untouching network.engine c := by
  intro id inside operator found inputs params store
  obtain ⟨step, inChain, applies⟩ := List.mem_filterMap.mp inside
  exact ((stateless step inChain).operator id applies operator found inputs params store).2

theorem Capability.Forgetful.callEnd {capability : Capability} (forgetful : capability.Forgetful)
    (history other : List Payload) (argument : Payload) (timeout : Option Timeout) :
    capability.callEnd history argument timeout = capability.callEnd other argument timeout := by
  unfold Capability.callEnd pace
  rw [forgetful history, forgetful other]

namespace World

variable {network : Network} {id : String}

/-- A source that keeps no state says the same in all worlds. -/
theorem callSource_congr
    (forgetful : ∀ s, network.sources.find? id = some s → s.capability.Forgetful) (w v : World)
    (at_ : Location) (context : Payload) (given : Option Timeout) :
    (w.callSource network at_ id context given).1 =
      (v.callSource network at_ id context given).1 := by
  unfold callSource Sources.get
  cases found : network.sources.find? id with
  | none => rfl
  | some s =>
      dsimp only [callCapability]
      rw [(forgetful s found).callEnd (w.callsOf (.source id)) (v.callsOf (.source id))]
      split <;> rfl

/-- A sink that keeps no state says the same in all worlds. -/
theorem callSink_congr
    (forgetful : ∀ s, network.sinks.find? id = some s → s.capability.Forgetful) (w v : World)
    (at_ other : Location) (value : Value) (given : Option Timeout) :
    (w.callSink network at_ id value given).1 = (v.callSink network other id value given).1 := by
  unfold callSink Sinks.get
  cases found : network.sinks.find? id with
  | none => rfl
  | some s =>
      dsimp only [callCapability]
      rw [(forgetful s found).callEnd (w.callsOf (.sink id)) (v.callsOf (.sink id))]
      split <;> rfl

/-- An operator that keeps away from the store gives the same in all worlds. -/
theorem applyOperator_congr
    (aloof : ∀ operator, network.engine.operators.find? id = some operator → operator.Aloof)
    (w v : World) (at_ : Location) (inputs : List Value) (params : Params) (step : Option Int) :
    (w.applyOperator network at_ id inputs params step).1 =
      (v.applyOperator network at_ id inputs params step).1 := by
  rw [applyOperator_outcome, applyOperator_outcome]
  unfold Engine.apply Engine.get
  cases found : network.engine.operators.find? id with
  | none => rfl
  | some operator =>
      have same : ∀ params, operator.call inputs params w.store =
          operator.call inputs params v.store := fun params =>
        (aloof operator found inputs params w.store).1.trans
          (aloof operator found inputs params v.store).1.symm
      simp only [same]

end World

namespace Run

variable {network : Network} {w v : World} {r : Run} {step : Step}

/-! ## What a turn sees -/

/-- The keys that a step reads show the same in two stores. -/
def SameReads (r : Run) (s s' : Store) (refs : List StoreRef) : Prop :=
  ∀ ref ∈ refs, ∀ p, ref.scope.partition (r.scopes.idFor ref.scope) = .ok p →
    s.slot? p ref.key = s'.slot? p ref.key

/-- What is loaded from two stores that show the same at the key. -/
theorem load_congr {s s' : Store} {ref : StoreRef}
    (same : ∀ p, ref.scope.partition (r.scopes.idFor ref.scope) = .ok p →
      s.slot? p ref.key = s'.slot? p ref.key) :
    load network s r ref = load network s' r ref := by
  unfold load
  cases place : ref.scope.partition (r.scopes.idFor ref.scope) with
  | error mishap => rfl
  | ok p =>
      have found : readSlot s p ref.key = readSlot s' p ref.key := by
        unfold readSlot
        rw [same p place]
      show (readSlot s p ref.key).mapError Failure.fault >>= _ =
        (readSlot s' p ref.key).mapError Failure.fault >>= _
      rw [found]

theorem loadAll_congr {s s' : Store} {refs : List StoreRef} {values : List Value}
    (same : SameReads r s s' refs) :
    loadAll network s r refs values = loadAll network s' r refs values := by
  induction refs generalizing r values with
  | nil => rfl
  | cons ref rest ih =>
      unfold loadAll
      rw [load_congr (same ref List.mem_cons_self)]
      cases first : load network s' r ref with
      | error failure => rfl
      | ok pair =>
          obtain ⟨value, r₁⟩ := pair
          obtain ⟨rfl, _⟩ := load_eq_ok first
          exact ih fun one inRest => same one (List.mem_cons_of_mem _ inRest)

theorem mergeInputs_congr {s s' : Store} {refs : List StoreRef} (same : SameReads r s s' refs) :
    mergeInputs network s r refs = mergeInputs network s' r refs := by
  unfold mergeInputs
  rw [loadAll_congr same]

/-- Sinks that keep no state say the same, one by one or at once. -/
theorem callSinks_congr {value : Value} {sinks : List String}
    (forgetful : ∀ id ∈ sinks, ∀ s, network.sinks.find? id = some s → s.capability.Forgetful)
    {outcomes : List (Option (Except Fault SinkResult))}
    (answers : List.Forall₂ (Answer network r.timeout value) sinks outcomes) (w : World) :
    (callSinks network w r value sinks).1 = outcomes := by
  have all := (callSinks_answers network w r value sinks).1
  generalize (callSinks network w r value sinks).1 = others at all
  induction all generalizing outcomes with
  | nil => exact (List.forall₂_nil_left_iff.mp answers).symm
  | cons first rest ih =>
      cases answers with
      | cons one more =>
          obtain ⟨w₁, at₁, said⟩ := first
          obtain ⟨w₂, at₂, other⟩ := one
          have same := World.callSink_congr (forgetful _ List.mem_cons_self) w₁ w₂ at₁ at₂ value
            r.timeout
          rw [← said, ← other, same,
            ih (fun id inside => forgetful id (List.mem_cons_of_mem _ inside)) more]

/-- What becomes of a call and the world after it, as far as it shows in a turn. -/
theorem outcome_cases {α : Type} {one other : World.Outcome α} (same : one.1 = other.1) :
    ∃ outcome w v, one = (outcome, w) ∧ other = (outcome, v) :=
  ⟨one.1, one.2, other.2, rfl, Prod.ext same.symm rfl⟩

theorem runSource_congr {id : String}
    (forgetful : ∀ s, network.sources.find? id = some s → s.capability.Forgetful) :
    (runSource network w r step id).2 = (runSource network v r step id).2 := by
  obtain ⟨outcome, w₁, v₁, one, other⟩ :=
    outcome_cases (World.callSource_congr forgetful w v r.location r.context r.timeout)
  unfold runSource
  rw [one, other]
  match outcome with
  | none => rfl
  | some (.error fault) => rfl
  | some (.ok value) => rfl

theorem runRelay_congr {id : String} {params : Params}
    (aloof : ∀ operator, network.engine.operators.find? id = some operator → operator.Aloof) :
    (runRelay network w r step id params).2 = (runRelay network v r step id params).2 := by
  unfold runRelay
  cases network.engine.get id with
  | error fault => rfl
  | ok operator =>
      dsimp only
      split
      · rfl
      · obtain ⟨outcome, w₁, v₁, one, other⟩ := outcome_cases (World.applyOperator_congr aloof w v
          r.location (r.stack.drop (r.stack.length - operator.arity.getD r.stack.length)) params
            (some r.next))
        rw [one, other]
        match outcome with
        | none => rfl
        | some (.error fault) => rfl
        | some (.ok output) => rfl

theorem runStore_congr {target : StoreRef} :
    (runStore w r step target).2 = (runStore v r step target).2 := by
  unfold runStore
  cases r.top? with
  | none => rfl
  | some value =>
      dsimp only
      cases target.scope.partition (r.scopes.idFor target.scope) with
      | error mishap => rfl
      | ok p => rfl

theorem runLoad_congr {origin : StoreRef} (same : SameReads r w.store v.store [origin]) :
    (runLoad network w r step origin).2 = (runLoad network v r step origin).2 := by
  unfold runLoad
  rw [load_congr (same origin List.mem_cons_self)]
  cases load network v.store r origin with
  | error failure => rfl
  | ok pair => rfl

theorem runMergeEnd_congr {loads : List StoreRef} {id : String} {params : Params}
    (aloof : ∀ operator, network.engine.operators.find? id = some operator → operator.Aloof)
    (same : mergeInputs network w.store r loads = mergeInputs network v.store r loads) :
    (runMergeEnd network w r step loads id params).2 =
      (runMergeEnd network v r step loads id params).2 := by
  unfold runMergeEnd
  rw [same]
  cases mergeInputs network v.store r loads with
  | error pair => rfl
  | ok pair =>
      obtain ⟨inputs, r₁⟩ := pair
      obtain ⟨outcome, w₁, v₁, one, other⟩ := outcome_cases
        (World.applyOperator_congr aloof w v r₁.location inputs params (some r₁.next))
      dsimp only
      rw [one, other]
      match outcome with
      | none => rfl
      | some (.error fault) => rfl
      | some (.ok output) => rfl

theorem runMerge_congr {sources : List String} {loads : List StoreRef} {id : String}
    {params : Params}
    (forgetful : ∀ id ∈ sources, ∀ s, network.sources.find? id = some s → s.capability.Forgetful)
    (aloof : ∀ operator, network.engine.operators.find? id = some operator → operator.Aloof)
    (same : SameReads r w.store v.store loads) :
    (runMerge network w r step sources loads id params).2 =
      (runMerge network v r step sources loads id params).2 := by
  unfold runMerge
  cases asked : sources[r.gathered.length]? with
  | none => exact runMergeEnd_congr aloof (mergeInputs_congr same)
  | some source =>
      obtain ⟨outcome, w₁, v₁, one, other⟩ := outcome_cases (World.callSource_congr
        (forgetful source (List.mem_of_getElem? asked)) w v r.location r.context r.timeout)
      dsimp only
      rw [one, other]
      match outcome with
      | none => rfl
      | some (.error fault) => rfl
      | some (.ok value) => rfl

/-- The verdict of the last sinks does not depend on the world. -/
theorem conclude_congr (w v : World) (r : Run) (shown : StepTrace) (delivered : Value) :
    (conclude w r shown delivered).2 = (conclude v r shown delivered).2 := by
  unfold conclude
  dsimp only
  split
  · rfl
  · rfl

theorem runSink_congr {id : String}
    (forgetful : ∀ s, network.sinks.find? id = some s → s.capability.Forgetful) :
    (runSink network w r step id).2 = (runSink network v r step id).2 := by
  unfold runSink
  cases r.top? with
  | none => rfl
  | some value =>
      obtain ⟨outcome, w₁, v₁, one, other⟩ := outcome_cases
        (World.callSink_congr forgetful w v r.location r.location value.forward r.timeout)
      dsimp only
      rw [one, other]
      match outcome with
      | none => rfl
      | some (.error fault) => rfl
      | some (.ok result) => exact conclude_congr w₁ v₁ _ _ _

/-- The run without the calls of sinks that are underway. -/
def uncalled (r : Run) : Run := { r with calls := [] }

theorem eq_with_calls {r s : Run} (same : r.uncalled = s.uncalled) :
    r = { s with calls := r.calls } :=
  congrArg (fun one : Run => { one with calls := r.calls }) same

theorem decided_congr (w v : World) (r : Run) (shown : StepTrace) (results : List SinkResult)
    (rejected : Option Fault) (delivered : Value) :
    (decided w r shown results rejected delivered).2 =
      (decided v r shown results rejected delivered).2 := by
  unfold decided
  cases rejected with
  | some fault => rfl
  | none =>
      dsimp only
      split
      · exact conclude_congr w v _ _ _
      · rfl

/-- Sinks that have said the same make the same of a step, however they have been called. -/
theorem runFanout_congr {r s : Run} {value : Value} {sinks : List String}
    (same : r.uncalled = s.uncalled) (top : r.top? = some value)
    (said : sinkOutcomes network w r value.forward sinks =
      sinkOutcomes network v s value.forward sinks) :
    (runFanout network w r step sinks).2 = (runFanout network v s step sinks).2 := by
  rw [eq_with_calls same] at top said ⊢
  have top' : s.top? = some value := top
  obtain ⟨w₁, ran, _⟩ := runFanout_of_top top network w step sinks
  obtain ⟨v₁, ran', _⟩ := runFanout_of_top top' network v step sinks
  rw [ran, ran', said]
  cases (sinkOutcomes network v s value.forward sinks).mapM id with
  | none => rfl
  | some outcomes =>
      dsimp only
      cases gatherSinks outcomes with
      | error fault => rfl
      | ok pair => exact decided_congr w₁ v₁ _ _ _ _ _

/-- A turn is the same in two worlds that show the same at the keys that its step reads, if what
it calls keeps no state. -/
theorem runStep_congr (stateless : step.Stateless network)
    (same : SameReads r w.store v.store step.reads) :
    (runStep network w r step).2 = (runStep network v r step).2 := by
  cases step with
  | source id => exact runSource_congr (stateless.sources id List.mem_cons_self)
  | relay id params => exact runRelay_congr (stateless.operator id rfl)
  | store target => exact runStore_congr
  | load origin => exact runLoad_congr same
  | merge sources loads id params =>
      exact runMerge_congr stateless.sources (stateless.operator id rfl) same
  | sink id => exact runSink_congr (stateless.sinks id List.mem_cons_self)
  | fanout sinks =>
      cases top : r.top? with
      | none =>
          show (runFanout network w r _ sinks).2 = (runFanout network v r _ sinks).2
          unfold runFanout
          rw [top]
      | some value =>
          refine runFanout_congr rfl top ?_
          unfold sinkOutcomes
          split
          · exact callSinks_congr stateless.sinks (callSinks_answers network v r _ sinks).1 w
          · rfl

/-! ## A turn in two worlds -/

/-- The run after a turn does not depend on the world. -/
theorem afterTurn_run (step : Step) (r : Run) (w v : World) (turn : Turn) :
    (afterTurn step r w turn).map Prod.snd = (afterTurn step r v turn).map Prod.snd := by
  cases turn with
  | stalled => rfl
  | partly after => rfl
  | failed after fault => rfl
  | crashed after mishap => rfl
  | passed after shown => rfl

/-- A view in which a run sees all that it reads. -/
def Sees (c : Chain) (scopes : RunScopes) (view : Partition → String → Prop) : Prop :=
  ∀ p key, c.Reads scopes p key → view p key

theorem Sees.sameReads {view : Partition → String → Prop} {s s' : Store}
    (sees : Sees r.chain r.scopes view) (agree : Store.Agree view s s')
    (here : r.chain.steps[r.next]? = some step) : SameReads r s s' step.reads :=
  fun ref inside p place => agree p ref.key
    (sees p ref.key ⟨step, List.mem_of_getElem? here, ref, inside, place, rfl⟩)

/-- A run takes the same turn in two worlds that show it the same. -/
theorem advance_congr {view : Partition → String → Prop} {w' : World} {r' : Run}
    (stateless : r.chain.Stateless network) (sees : Sees r.chain r.scopes view)
    (agree : Store.Agree view w.store v.store)
    (turned : advance network w r = some (w', r')) :
    ∃ v', advance network v r = some (v', r') ∧ w'.store = w.store.applyAll r.turnEdits ∧
      v'.store = v.store.applyAll r.turnEdits := by
  obtain ⟨running, step, here⟩ := running_of_advance turned
  have store := advance_store stateless.untouching turned
  rw [advance_eq running here] at turned
  have same := runStep_congr (stateless step (List.mem_of_getElem? here))
    (sees.sameReads agree here)
  rw [same] at turned
  have after := afterTurn_run step r (runStep network w r step).1 (runStep network v r step).1
    (runStep network v r step).2
  rw [turned, ← advance_eq running here] at after
  obtain ⟨⟨v', r₁⟩, turned', same⟩ := Option.map_eq_some_iff.mp after.symm
  obtain rfl : r₁ = r' := same
  exact ⟨v', turned', store, advance_store stateless.untouching turned'⟩

end Run

end TaintFlow
