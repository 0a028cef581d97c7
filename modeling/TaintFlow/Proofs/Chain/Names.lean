import TaintFlow.Proofs.Chain.Depth
import TaintFlow.Proofs.Data.Assoc
import TaintFlow.Proofs.Relay.Engine

/-!
# What a chain names

A chain names its components by their ids.  An accepted chain names only what is
registered, so that every id that it names can be looked up.
-/

namespace TaintFlow.Chain

/-- Every component that a chain names can be looked up. -/
structure Registered (network : Network) (c : Chain) : Prop where
  sources : ∀ id ∈ c.sources, ∃ s, network.sources.get id = .ok s
  sinks : ∀ id ∈ c.sinks, ∃ s, network.sinks.get id = .ok s
  operators : ∀ id ∈ c.operators, ∃ operator, network.engine.get id = .ok operator

variable {network : Network} {c : Chain}

theorem sources_get_of_has {id : String} (there : network.sources.has id = true) :
    ∃ s, network.sources.get id = .ok s := by
  obtain ⟨s, found⟩ := Assoc.find?_of_has there
  unfold Sources.get
  rw [found]
  exact ⟨s, rfl⟩

theorem sinks_get_of_has {id : String} (there : network.sinks.has id = true) :
    ∃ s, network.sinks.get id = .ok s := by
  obtain ⟨s, found⟩ := Assoc.find?_of_has there
  unfold Sinks.get
  rw [found]
  exact ⟨s, rfl⟩

/-- A step that is allowed names what is registered. -/
theorem Allows.registered {isLast : Bool} {depth after : Nat} {step : Step}
    (allows : Allows network isLast depth after step) :
    (∀ id ∈ step.sources, network.sources.has id = true) ∧
      (∀ id ∈ step.sinks, network.sinks.has id = true) ∧
      ∀ id, step.operator? = some id →
        ∃ operator, network.engine.operators.find? id = some operator := by
  have nowhere : ∀ {P : String → Prop}, ∀ id ∈ ([] : List String), P id :=
    fun _ inside => absurd inside List.not_mem_nil
  cases step with
  | source id => exact ⟨List.forall_mem_singleton.mpr allows.1, nowhere, nofun⟩
  | load origin => exact ⟨nowhere, nowhere, nofun⟩
  | store target => exact ⟨nowhere, nowhere, nofun⟩
  | fanout sinks => exact ⟨nowhere, allows.2.1, nofun⟩
  | sink id => exact ⟨nowhere, List.forall_mem_singleton.mpr allows.2.2.1, nofun⟩
  | relay id params =>
      obtain ⟨operator, found, _⟩ := allows
      refine ⟨nowhere, nowhere, fun other same => ?_⟩
      obtain rfl := Option.some.inj same
      exact ⟨operator, found⟩
  | merge sources loads id params =>
      obtain ⟨known, ⟨operator, found, _⟩, _⟩ := allows
      refine ⟨known, nowhere, fun other same => ?_⟩
      obtain rfl := Option.some.inj same
      exact ⟨operator, found⟩

/-- Each step of a chain that is accepted names what is registered. -/
theorem registered_of_here (valid : c.validate network = .ok ()) {i : Nat} {step : Step}
    (here : c.steps[i]? = some step) :
    (∀ id ∈ step.sources, network.sources.has id = true) ∧
      (∀ id ∈ step.sinks, network.sinks.has id = true) ∧
      ∀ id, step.operator? = some id →
        ∃ operator, network.engine.operators.find? id = some operator := by
  obtain ⟨_, _, _, done, _⟩ := depthAfter_of_valid valid here
  exact (depthAfter_eq_ok.mp done).registered

/-- A chain that is accepted names only what is registered. -/
theorem registered_of_valid (valid : c.validate network = .ok ()) : c.Registered network := by
  have each : ∀ step ∈ c.steps, (∀ id ∈ step.sources, network.sources.has id = true) ∧
      (∀ id ∈ step.sinks, network.sinks.has id = true) ∧
      ∀ id, step.operator? = some id →
        ∃ operator, network.engine.operators.find? id = some operator := by
    intro step inside
    obtain ⟨i, here⟩ := List.getElem?_of_mem inside
    exact registered_of_here valid here
  constructor
  · intro id inside
    obtain ⟨step, there, named⟩ := List.mem_flatMap.mp inside
    exact sources_get_of_has ((each step there).1 id named)
  · intro id inside
    obtain ⟨step, there, named⟩ := List.mem_flatMap.mp inside
    exact sinks_get_of_has ((each step there).2.1 id named)
  · intro id inside
    obtain ⟨step, there, named⟩ := List.mem_filterMap.mp inside
    obtain ⟨operator, found⟩ := (each step there).2.2 id named
    exact ⟨operator, Engine.get_eq_ok.mpr found⟩

end TaintFlow.Chain
