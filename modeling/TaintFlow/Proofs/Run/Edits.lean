import TaintFlow.Proofs.Run.Turns
import TaintFlow.Proofs.Store.Slots

/-!
# What a turn changes in the store

A turn makes the edits that an operator of its step asks for, and a step that
stores the active value writes it.  Nothing else that a turn does changes the
store.  The main statement is `advance_edits`; `advance_store` is for chains
whose operators ask for nothing.
-/

namespace TaintFlow

/-- Applied to something, an operator may ask for this edit. -/
def Engine.MayAsk (engine : Engine) (id : String) (e : Store.Edit) : Prop :=
  ∃ inputs params step store, e ∈ (engine.apply id inputs params step store).edits

/-- An operator of a chain may ask for this edit. -/
def Chain.MayAsk (engine : Engine) (c : Chain) (e : Store.Edit) : Prop :=
  ∃ id ∈ c.operators, engine.MayAsk id e

namespace Run

variable {network : Network} {w : World} {r : Run} {step : Step}

/-- Operators that ask for nothing may not ask for anything. -/
theorem Untouching.not_mayAsk {engine : Engine} {c : Chain} (untouching : Untouching engine c)
    (e : Store.Edit) : ¬ c.MayAsk engine e := by
  rintro ⟨id, inside, inputs, params, step, store, asks⟩
  rw [Engine.edits_eq_nil (untouching id inside)] at asks
  exact List.not_mem_nil asks

/-- The edits of the store that a step makes. -/
def edits (r : Run) : Step → List Store.Edit
  | .store target =>
    match r.top?, target.scope.partition (r.scopes.idFor target.scope) with
    | some value, .ok p => [.put p target.key value.forward value.forward.hops]
    | _, _ => []
  | _ => []

/-- The store that is left when an operator has been asked. -/
def AskedBy (engine : Engine) (id : String) (s s' : Store) : Prop :=
  ∃ asked : List Store.Edit, (∀ e ∈ asked, engine.MayAsk id e) ∧ s' = s.applyAll asked

theorem AskedBy.refl (engine : Engine) (id : String) (s : Store) : AskedBy engine id s s :=
  ⟨[], nofun, rfl⟩

theorem askedBy_applyOperator (network : Network) (w : World) (at_ : World.Location) (id : String)
    (inputs : List Value) (params : Params) (index : Option Int) :
    AskedBy network.engine id w.store
      (w.applyOperator network at_ id inputs params index).2.store :=
  ⟨(network.engine.apply id inputs params index w.store).edits,
    fun _ inside => ⟨inputs, params, index, w.store, inside⟩,
    World.applyOperator_store w network at_ id inputs params index⟩

/-! ## Each step -/

theorem runSource_store (id : String) : (runSource network w r step id).1.store = w.store := by
  have store := World.callSource_store w network r.location id r.context r.timeout
  unfold runSource
  generalize w.callSource network r.location id r.context r.timeout = called at store ⊢
  obtain ⟨outcome, w₁⟩ := called
  match outcome with
  | none => exact store
  | some (.error fault) => exact store
  | some (.ok value) => exact store

theorem runRelay_asked (id : String) (params : Params) :
    AskedBy network.engine id w.store (runRelay network w r step id params).1.store := by
  unfold runRelay
  cases network.engine.get id with
  | error fault => exact .refl network.engine id w.store
  | ok operator =>
      dsimp only
      split
      · exact .refl network.engine id w.store
      · have asked := askedBy_applyOperator network w r.location id
          (r.stack.drop (r.stack.length - operator.arity.getD r.stack.length)) params (some r.next)
        generalize w.applyOperator network r.location id _ params (some r.next) = called at asked ⊢
        obtain ⟨outcome, w₁⟩ := called
        match outcome with
        | none => exact asked
        | some (.error fault) => exact asked
        | some (.ok output) => exact asked

theorem runMergeEnd_asked (loads : List StoreRef) (id : String) (params : Params) :
    AskedBy network.engine id w.store (runMergeEnd network w r step loads id params).1.store := by
  unfold runMergeEnd
  cases mergeInputs network w.store r loads with
  | error pair => exact .refl network.engine id w.store
  | ok pair =>
      obtain ⟨inputs, r₁⟩ := pair
      have asked := askedBy_applyOperator network w r₁.location id inputs params (some r₁.next)
      dsimp only
      generalize w.applyOperator network r₁.location id inputs params (some r₁.next) = called
        at asked ⊢
      obtain ⟨outcome, w₁⟩ := called
      match outcome with
      | none => exact asked
      | some (.error fault) => exact asked
      | some (.ok output) => exact asked

theorem runMerge_asked (sources : List String) (loads : List StoreRef) (id : String)
    (params : Params) :
    AskedBy network.engine id w.store
      (runMerge network w r step sources loads id params).1.store := by
  unfold runMerge
  cases sources[r.gathered.length]? with
  | none => exact runMergeEnd_asked loads id params
  | some source =>
      have store := World.callSource_store w network r.location source r.context r.timeout
      dsimp only
      generalize w.callSource network r.location source r.context r.timeout = called at store ⊢
      obtain ⟨outcome, w₁⟩ := called
      refine ⟨[], nofun, ?_⟩
      match outcome with
      | none => exact store
      | some (.error fault) => exact store
      | some (.ok value) => exact store

theorem runLoad_store (origin : StoreRef) :
    (runLoad network w r step origin).1.store = w.store := by
  unfold runLoad
  split
  · rfl
  · rfl

theorem conclude_store (w : World) (r : Run) (shown : StepTrace) (delivered : Value) :
    (conclude w r shown delivered).1.store = w.store := by
  unfold conclude
  dsimp only
  split
  · rfl
  · rfl

theorem runSink_store (id : String) : (runSink network w r step id).1.store = w.store := by
  unfold runSink
  cases r.top? with
  | none => rfl
  | some value =>
      have store := World.callSink_store w network r.location id value.forward r.timeout
      dsimp only
      generalize w.callSink network r.location id value.forward r.timeout = called at store ⊢
      obtain ⟨outcome, w₁⟩ := called
      match outcome with
      | none => exact store
      | some (.error fault) => exact store
      | some (.ok result) => exact (conclude_store w₁ _ _ _).trans store

theorem runFanout_store (sinks : List String) :
    (runFanout network w r step sinks).1.store = w.store := by
  have comes := fanoutTurn network w r step sinks
  generalize runFanout network w r step sinks = result at comes ⊢
  cases comes with
  | empty => rfl
  | stalled _ _ store => exact store
  | failed hears => exact hears.store
  | rejected hears _ store => exact store.trans hears.store
  | concluded hears => exact (conclude_store _ _ _ _).trans hears.store
  | passed hears => exact hears.store

theorem runStore_store (target : StoreRef) :
    (runStore w r step target).1.store = w.store.applyAll (r.edits (.store target)) := by
  unfold runStore edits
  cases r.top? with
  | none => rfl
  | some value =>
      dsimp only
      cases target.scope.partition (r.scopes.idFor target.scope) with
      | error mishap => rfl
      | ok p => exact World.edit_store w r.location _

/-- A turn makes the edits that the operator of its step asks for, and those of the step itself. -/
theorem runStep_edits (network : Network) (w : World) (r : Run) (step : Step) :
    ∃ asked : List Store.Edit,
      (∀ e ∈ asked, ∃ id, step.operator? = some id ∧ network.engine.MayAsk id e) ∧
      (runStep network w r step).1.store = (w.store.applyAll asked).applyAll (r.edits step) := by
  cases step with
  | source id => exact ⟨[], nofun, runSource_store id⟩
  | relay id params =>
      have asking : AskedBy network.engine id w.store
          (runStep network w r (.relay id params)).1.store := runRelay_asked id params
      obtain ⟨asked, may, store⟩ := asking
      exact ⟨asked, fun e inside => ⟨id, rfl, may e inside⟩, store⟩
  | store target => exact ⟨[], nofun, runStore_store target⟩
  | load origin => exact ⟨[], nofun, runLoad_store origin⟩
  | merge sources loads id params =>
      obtain ⟨asked, may, store⟩ := runMerge_asked sources loads id params
      exact ⟨asked, fun e inside => ⟨id, rfl, may e inside⟩, store⟩
  | sink id => exact ⟨[], nofun, runSink_store id⟩
  | fanout sinks => exact ⟨[], nofun, runFanout_store sinks⟩

/-! ## Turns -/

theorem afterTurn_store {turn : Turn} {w' : World} {r' : Run}
    (turned : afterTurn step r w turn = some (w', r')) : w'.store = w.store := by
  cases turn with
  | stalled => exact nomatch turned
  | partly after =>
      obtain ⟨rfl, -⟩ := Prod.mk.inj (Option.some.inj turned)
      rfl
  | failed after fault =>
      obtain ⟨rfl, -⟩ := Prod.mk.inj (Option.some.inj turned)
      rfl
  | crashed after mishap =>
      obtain ⟨rfl, -⟩ := Prod.mk.inj (Option.some.inj turned)
      rfl
  | passed after shown =>
      obtain ⟨rfl, -⟩ := Prod.mk.inj (Option.some.inj turned)
      rfl

/-- The edits of a turn. -/
def turnEdits (r : Run) : List Store.Edit := (r.chain.steps[r.next]?.map r.edits).getD []

/-- A turn of a step that does not store makes no edit. -/
theorem turnEdits_of_other (here : r.chain.steps[r.next]? = some step)
    (other : step.kind ≠ .store) : r.turnEdits = [] := by
  unfold turnEdits
  rw [here]
  cases step with
  | store target => exact absurd rfl other
  | source | relay | load | fanout | merge | sink => rfl

/-- A turn makes the edits that operators of the chain ask for, and those of its own step. -/
theorem advance_edits {w' : World} {r' : Run} (turned : advance network w r = some (w', r')) :
    ∃ asked : List Store.Edit, (∀ e ∈ asked, r.chain.MayAsk network.engine e) ∧
      w'.store = (w.store.applyAll asked).applyAll r.turnEdits := by
  obtain ⟨running, step, here⟩ := running_of_advance turned
  rw [advance_eq running here] at turned
  obtain ⟨asked, may, store⟩ := runStep_edits network w r step
  refine ⟨asked, fun e inside => ?_, ?_⟩
  · obtain ⟨id, applies, mayAsk⟩ := may e inside
    exact ⟨id, Chain.mem_operators here applies, mayAsk⟩
  · rw [afterTurn_store turned, store]
    unfold turnEdits
    rw [here]
    rfl

/-- If operators ask for nothing, a turn makes the edits of its step and no others. -/
theorem advance_store {w' : World} {r' : Run} (untouching : Untouching network.engine r.chain)
    (turned : advance network w r = some (w', r')) :
    w'.store = w.store.applyAll r.turnEdits := by
  obtain ⟨asked, may, store⟩ := advance_edits turned
  cases asked with
  | nil => exact store
  | cons e rest => exact absurd (may e List.mem_cons_self) (untouching.not_mayAsk e)

end Run

end TaintFlow
