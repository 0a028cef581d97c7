import TaintFlow.Proofs.Run.Trace

/-!
# What a turn applies

A turn of a relay, or of a merge whose inputs are all there, applies an operator.
What becomes of the turn then is up to the operator alone.
-/

namespace TaintFlow.Run

variable {network : Network} {rely : World → World → Prop} {w₀ w w' : World} {r₀ r r' : Run}

/-- An operator and what it is applied to. -/
structure Application where
  operator : String
  inputs : List Value
  params : Params

/-- What the next turn of a run applies, if it comes to that. -/
def application? (network : Network) (w : World) (r : Run) : Option Application :=
  match r.chain.steps[r.next]? with
  | some (.relay id params) =>
    match network.engine.operators.find? id with
    | some operator =>
      let count := operator.arity.getD r.stack.length
      if count = 0 ∨ r.stack.length < count then none
      else some ⟨id, r.youngest count, params⟩
    | none => none
  | some (.merge sources loads id params) =>
    match sources[r.gathered.length]? with
    | some _ => none
    | none =>
      match mergeInputs network w.store r loads with
      | .ok (inputs, _) => some ⟨id, inputs, params⟩
      | .error _ => none
  | _ => none

/-- A relay applies its operator to the youngest active values. -/
theorem runStep_of_relay {id : String} {params : Params} {applied : Application} {fault : Fault}
    {w₁ : World} (here : r.chain.steps[r.next]? = some (.relay id params))
    (asks : r.application? network w = some applied)
    (failed : w.applyOperator network r.location applied.operator applied.inputs applied.params
      (some r.next) = (some (.error fault), w₁)) :
    runStep network w r (.relay id params) = (w₁, .failed r fault) := by
  unfold application? at asks
  rw [here] at asks
  dsimp only at asks
  cases found : network.engine.operators.find? id with
  | none => simp [found] at asks
  | some operator =>
      rw [found] at asks
      dsimp only at asks
      split at asks
      · cases asks
      · rename_i enough
        obtain rfl := Option.some.inj asks
        have turn : runStep network w r (.relay id params) =
          runRelay network w r (.relay id params) id params := rfl
        rw [turn]
        unfold runRelay
        rw [Engine.get_eq_ok.mpr found]
        dsimp only
        rw [if_neg enough]
        unfold youngest at failed
        rw [failed]

/-- A merge applies its operator to all its inputs, whatever it has read before. -/
theorem runStep_of_merge {sources : List String} {loads : List StoreRef} {id : String}
    {params : Params} {applied : Application} {fault : Fault} {w₁ : World}
    (here : r.chain.steps[r.next]? = some (.merge sources loads id params))
    (asks : r.application? network w = some applied)
    (failed : w.applyOperator network r.location applied.operator applied.inputs applied.params
      (some r.next) = (some (.error fault), w₁)) :
    ∃ r₁, Unwritten r r₁ ∧
      runStep network w r (.merge sources loads id params) = (w₁, .failed r₁ fault) := by
  unfold application? at asks
  rw [here] at asks
  dsimp only at asks
  cases asked : sources[r.gathered.length]? with
  | some source => simp [asked] at asks
  | none =>
      rw [asked] at asks
      dsimp only at asks
      cases read : mergeInputs network w.store r loads with
      | error failure => simp [read] at asks
      | ok pair =>
          obtain ⟨inputs, r₁⟩ := pair
          rw [read] at asks
          obtain rfl := Option.some.inj asks
          have same := mergeInputs_run read
          have location : r₁.location = r.location := by rw [same]; rfl
          have next : r₁.next = r.next := by rw [same]; rfl
          refine ⟨r₁, by rw [same]; exact ⟨rfl, rfl, rfl⟩, ?_⟩
          have turn : runStep network w r (.merge sources loads id params) =
            runMerge network w r (.merge sources loads id params) sources loads id params := rfl
          rw [turn]
          unfold runMerge
          rw [asked]
          dsimp only
          unfold runMergeEnd
          rw [read]
          dsimp only
          rw [location, next, failed]

/-- The step of an operator that fails is given up with the fault of the operator. -/
theorem advance_of_failed {applied : Application} {fault : Fault} {w₁ : World}
    (running : r.state = .running) (asks : r.application? network w = some applied)
    (failed : w.applyOperator network r.location applied.operator applied.inputs applied.params
      (some r.next) = (some (.error fault), w₁)) :
    ∃ w₂ r₁ step, r.chain.steps[r.next]? = some step ∧ Unwritten r r₁ ∧
      advance network w r = some (fail w₂ r₁ step fault) := by
  have turns : ∀ {step r₁}, r.chain.steps[r.next]? = some step →
      runStep network w r step = (w₁, .failed r₁ fault) →
        advance network w r = some (fail (w₁.count (.steps step.kind)) r₁ step fault) := by
    intro step r₁ here turn
    rw [advance_eq running here, turn]
    rfl
  cases here : r.chain.steps[r.next]? with
  | none => simp [application?, here] at asks
  | some step =>
      cases step with
      | relay id params =>
          exact ⟨_, r, _, rfl, .refl r, turns here (runStep_of_relay here asks failed)⟩
      | merge sources loads id params =>
          obtain ⟨r₁, unwritten, turn⟩ := runStep_of_merge here asks failed
          exact ⟨_, r₁, _, rfl, unwritten, turns here turn⟩
      | source id => simp [application?, here] at asks
      | store target => simp [application?, here] at asks
      | load origin => simp [application?, here] at asks
      | fanout sinks => simp [application?, here] at asks
      | sink id => simp [application?, here] at asks

/-- Nothing more is written down of a run that has ended. -/
theorem Path.result_of_isTerminal (terminal : r₀.state.isTerminal = true)
    (path : Path network rely w₀ r₀ w r) :
    r.state = r₀.state ∧ r.result.trace = r₀.result.trace ∧
      r.result.sinkResults = r₀.result.sinkResults ∧ r.result.error = r₀.result.error := by
  refine path.keeps (fun r => r.state = r₀.state ∧ r.result.trace = r₀.result.trace ∧
    r.result.sinkResults = r₀.result.sinkResults ∧ r.result.error = r₀.result.error) ?_
      ⟨rfl, rfl, rfl, rfl⟩
  rintro w r w' r' ⟨state, entries, heard, error⟩ move
  rcases move.turns_or_quiet with turned | quiet
  · rw [← state] at terminal
    exact absurd (running_of_advance turned).1 (not_running_of_isTerminal terminal)
  · refine ⟨?_, quiet.entries.trans entries, quiet.heard.trans heard, quiet.error.trans error⟩
    rcases quiet.state with same | ⟨pending, _⟩
    · exact same.trans state
    · rw [← state, pending] at terminal
      cases terminal

end TaintFlow.Run
