import TaintFlow.Proofs.Run.Depth

/-!
# The turns that are left

Every turn that leaves its run going leaves fewer turns to take, and every turn
but one that stores a value leaves the store as it is if no operator edits it.
-/

namespace TaintFlow.Run

variable {network : Network} {w w' : World} {r r' : Run}

/-! ## Turns -/

/-- The turns of several steps, without those that have been taken. -/
def turnsOf (steps : List Step) : Nat :=
  steps.foldl (fun turns step => turns + step.sources.length + 1) 0

theorem turnsLeft_eq (r : Run) :
    r.turnsLeft = turnsOf (r.chain.steps.drop r.next) - r.gathered.length := rfl

theorem turnsOf_cons (step : Step) (rest : List Step) :
    turnsOf (step :: rest) = step.sources.length + 1 + turnsOf rest := by
  have shift : ∀ (steps : List Step) (start : Nat),
      steps.foldl (fun turns step => turns + step.sources.length + 1) start =
        start + turnsOf steps := by
    intro steps
    induction steps with
    | nil => exact fun start => rfl
    | cons first others ih =>
        intro start
        unfold turnsOf
        rw [List.foldl_cons, List.foldl_cons, ih, ih]
        omega
  unfold turnsOf
  rw [List.foldl_cons, shift]
  unfold turnsOf
  omega

/-- What is left at a step is left of the step itself and of those after it. -/
theorem turnsOf_drop {steps : List Step} {i : Nat} {step : Step} (here : steps[i]? = some step) :
    turnsOf (steps.drop i) = step.sources.length + 1 + turnsOf (steps.drop (i + 1)) := by
  obtain ⟨less, same⟩ := List.getElem?_eq_some_iff.mp here
  rw [List.drop_eq_getElem_cons less, turnsOf_cons, same]

theorem Gathers.length_le {step : Step} (gathers : Gathers network r)
    (here : r.chain.steps[r.next]? = some step) (notLoaded : r.loaded = false) :
    r.gathered.length ≤ step.sources.length := by
  by_cases merge : step.kind = .merge
  · cases step with
    | merge sources loads id params => exact (gathers.merge here).2.1 notLoaded
    | source id => exact nomatch merge
    | relay id params => exact nomatch merge
    | store target => exact nomatch merge
    | load origin => exact nomatch merge
    | fanout sinks => exact nomatch merge
    | sink id => exact nomatch merge
  · rw [(gathers.nil_of_other here merge).1]
    exact Nat.zero_le _

/-- A turn that leaves its run going leaves fewer turns, and keys that are still to be read. -/
theorem Deed.turnsLeft_lt (before : r.state = .running) (deed : Deed network w r w' r')
    (gathers : Gathers network r) (notLoaded : r.loaded = false)
    (after : r'.state = .running) : r'.turnsLeft < r.turnsLeft ∧ r'.loaded = false := by
  rw [turnsLeft_eq, turnsLeft_eq]
  rcases deed.passes_or_collects before after with passes | ⟨_, value, collects⟩
  · obtain ⟨nil, still⟩ := gathers.nil_of_passes deed passes
    obtain ⟨step, here, _⟩ := passes.step
    have few := gathers.length_le here notLoaded
    have left := turnsOf_drop here
    rw [nil, passes.chain, passes.next]
    refine ⟨?_, still⟩
    simp only [List.length_nil]
    omega
  · obtain ⟨sources, loads, operator, params, here, asked, _⟩ := collects.asked
    have few : r.gathered.length < sources.length := (List.getElem?_eq_some_iff.mp asked).1
    have left : turnsOf (r.chain.steps.drop r.next) =
        sources.length + 1 + turnsOf (r.chain.steps.drop (r.next + 1)) := turnsOf_drop here
    obtain rfl := collects.same
    have count : (r.gathered ++ [value]).length = r.gathered.length + 1 := List.length_append
    refine ⟨?_, notLoaded⟩
    show turnsOf (r.chain.steps.drop r.next) - (r.gathered ++ [value]).length < _
    omega

/-! ## The store -/

/-- No operator of a chain asks for edits of the store. -/
def Untouching (engine : Engine) (c : Chain) : Prop :=
  ∀ id ∈ c.operators, ∀ operator, engine.operators.find? id = some operator →
    ∀ inputs params store, (operator.call inputs params store).edits = []

/-- A turn that leaves its run going changes the store only if it stores the active value. -/
theorem Deed.store (deed : Deed network w r w' r')
    (untouching : Untouching network.engine r.chain) (after : r'.state = .running) :
    w'.store = w.store ∨
      ∃ target value p, r.chain.steps[r.next]? = some (.store target) ∧ r.top? = some value ∧
        target.scope.partition (r.scopes.idFor target.scope) = .ok p ∧
        w'.store = w.store.write p target.key value.forward value.forward.hops := by
  have applied : ∀ {step id inputs params outcome w₁},
      r.chain.steps[r.next]? = some step → step.operator? = some id →
        w.applyOperator network r.location id inputs params (some r.next) = (outcome, w₁) →
          w₁.store = w.store := by
    intro step id inputs params outcome w₁ here applies call
    have inside := Chain.mem_operators here applies
    have store := World.applyOperator_store w network r.location id inputs params (some r.next)
    rw [call, Engine.edits_eq_nil (untouching id inside)] at store
    exact store
  cases deed with
  | took here gave => exact .inl ((World.count_store _ _).trans (World.store_of_callSource gave))
  | gathered collects =>
      obtain ⟨_, _, _, _, _, _, gave⟩ := collects.asked
      exact .inl (World.store_of_callSource gave)
  | relayed here found taken some_ enough call =>
      exact .inl ((World.count_store _ _).trans (applied here rfl call))
  | stored here top place =>
      refine .inr ⟨_, _, _, here, top, place, ?_⟩
      rw [World.count_store, World.edit_store]
      rfl
  | loaded here => exact .inl rfl
  | merged here asked read call => exact .inl ((World.count_store _ _).trans (applied here rfl call))
  | handedOn here onTheWay top handed heard store => exact .inl store
  | judged judges => exact absurd after judges.not_running
  | ended ends => exact absurd after ends.not_running

/-- A turn of any other step leaves the store alone. -/
theorem Deed.store_eq (deed : Deed network w r w' r')
    (untouching : Untouching network.engine r.chain) (after : r'.state = .running) {step : Step}
    (here : r.chain.steps[r.next]? = some step) (other : step.kind ≠ .store) :
    w'.store = w.store := by
  rcases deed.store untouching after with same | ⟨target, _, _, store, _⟩
  · exact same
  · obtain rfl := Option.some.inj (here.symm.trans store)
    exact absurd rfl other

end TaintFlow.Run
