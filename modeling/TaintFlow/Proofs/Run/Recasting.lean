import TaintFlow.Proofs.Run.Trace

/-!
# Runs under other names and with other operators

A run is recast: it goes by another id, and its relay steps apply other operators.  If
these make the same of what they are applied to, the recast run does at each turn what
the run itself does, and writes the same down but for the names of the operators.  The
main statements are `advance_recast`, `Move.recast` and `run_recast`.
-/

namespace TaintFlow

/-- Other operators for the relay steps of a chain, by the index of the step, and other ids for
runs. -/
structure Recasting where
  relay : Nat → String → Params → String × Params := fun _ id params => (id, params)
  runId : String → String := fun id => id

namespace Recasting

variable (m : Recasting)

/-- The step at an index with the other operator. -/
def step (i : Nat) : Step → Step
  | .relay id params => .relay (m.relay i id params).1 (m.relay i id params).2
  | other => other

/-- The chain with the other operators. -/
def chain (c : Chain) : Chain :=
  { c with
    steps := c.steps.mapIdx m.step
    steps_ne := fun nil => c.steps_ne (List.mapIdx_eq_nil_iff.mp nil) }

/-- The entry of a step with the other operator. -/
def entry (shown : StepTrace) : StepTrace := { shown with step := m.step shown.index shown.step }

/-- The result of a run under its other id. -/
def result (result : RunResult) : RunResult :=
  { result with runId := m.runId result.runId, trace := result.trace.map m.entry }

/-- The run under its other id with the other operators. -/
def run (r : Run) : Run := { r with chain := m.chain r.chain, result := m.result r.result }

/-- A turn of the run under its other id. -/
def turn : Run.Turn → Run.Turn
  | .stalled => .stalled
  | .partly r => .partly (m.run r)
  | .failed r fault => .failed (m.run r) fault
  | .crashed r mishap => .crashed (m.run r) mishap
  | .passed r shown => .passed (m.run r) (m.entry shown)

/-- The end of the run under its other id. -/
def ending : Run.End → Run.End
  | .returned w r => .returned w (m.run r)
  | .raised w r mishap => .raised w (m.run r) mishap
  | .stalled w r => .stalled w (m.run r)

variable {m}

@[simp] theorem step_kind (i : Nat) (step : Step) : (m.step i step).kind = step.kind := by
  cases step <;> rfl

@[simp] theorem step_sources (i : Nat) (step : Step) : (m.step i step).sources = step.sources := by
  cases step <;> rfl

theorem getElem?_chain (c : Chain) (i : Nat) :
    (m.chain c).steps[i]? = c.steps[i]?.map (m.step i) := List.getElem?_mapIdx

@[simp] theorem length_chain (c : Chain) : (m.chain c).steps.length = c.steps.length :=
  List.length_mapIdx

@[simp] theorem lastIndex_chain (c : Chain) : (m.chain c).lastIndex = c.lastIndex := by
  unfold Chain.lastIndex
  rw [length_chain]

end Recasting

namespace Run

variable {network : Network} {w w' : World} {r r' : Run} {step : Step} {m : Recasting}

@[simp] theorem recast_location : (m.run r).location = r.location := rfl

@[simp] theorem recast_context : (m.run r).context = r.context := rfl

@[simp] theorem recast_timeout : (m.run r).timeout = r.timeout := rfl

@[simp] theorem recast_next : (m.run r).next = r.next := rfl

@[simp] theorem recast_stack : (m.run r).stack = r.stack := rfl

@[simp] theorem recast_top? : (m.run r).top? = r.top? := rfl

@[simp] theorem recast_gathered : (m.run r).gathered = r.gathered := rfl

@[simp] theorem recast_loaded : (m.run r).loaded = r.loaded := rfl

@[simp] theorem recast_written : (m.run r).written = r.written := rfl

@[simp] theorem recast_scopes : (m.run r).scopes = r.scopes := rfl

@[simp] theorem recast_state : (m.run r).state = r.state := rfl

@[simp] theorem recast_calls : (m.run r).calls = r.calls := rfl

@[simp] theorem recast_atLast : (m.run r).atLast = r.atLast := by
  unfold atLast
  rw [recast_next, ← Recasting.lastIndex_chain (m := m) r.chain]
  rfl

theorem recast_steps : (m.run r).chain.steps[(m.run r).next]? =
    r.chain.steps[r.next]?.map (m.step r.next) := Recasting.getElem?_chain r.chain r.next

theorem stopped_recast (failure : Failure) :
    (m.run r).stopped failure = m.turn (r.stopped failure) := by
  cases failure <;> rfl

theorem runSource_recast (step : Step) (id : String) :
    runSource network w (m.run r) (m.step r.next step) id =
      (runSource network w r step id).map (fun w => w) m.turn := by
  unfold runSource
  rw [recast_location, recast_context, recast_timeout]
  rcases w.callSource network r.location id r.context r.timeout with ⟨_ | fault | value, w₁⟩
  · rfl
  · rfl
  · rfl

theorem runRelay_recast (step : Step) (id : String) (params : Params) :
    runRelay network w (m.run r) (m.step r.next step) id params =
      (runRelay network w r step id params).map (fun w => w) m.turn := by
  unfold runRelay
  cases network.engine.get id with
  | error fault => rfl
  | ok operator =>
      rw [recast_stack, recast_location, recast_next]
      dsimp only
      split
      · rfl
      · rcases w.applyOperator network r.location id _ params (some r.next) with
          ⟨_ | fault | output, w₁⟩
        · rfl
        · rfl
        · rfl

theorem runStore_recast (step : Step) (target : StoreRef) :
    runStore w (m.run r) (m.step r.next step) target =
      (runStore w r step target).map (fun w => w) m.turn := by
  unfold runStore
  rw [recast_top?, recast_scopes, Recasting.step_kind]
  cases r.top? with
  | none => rfl
  | some value =>
      dsimp only
      cases target.scope.partition (r.scopes.idFor target.scope) with
      | error mishap => rfl
      | ok p => rfl

theorem load_recast (store : Store) (ref : StoreRef) :
    load network store (m.run r) ref =
      (load network store r ref).map (Prod.map (fun value => value) m.run) := by
  unfold load
  rw [recast_scopes, recast_written, recast_next]
  cases ref.scope.partition (r.scopes.idFor ref.scope) with
  | error mishap => rfl
  | ok p =>
      show (readSlot store p ref.key).mapError Failure.fault >>= _ =
        Except.map _ ((readSlot store p ref.key).mapError Failure.fault >>= _)
      cases readSlot store p ref.key with
      | error fault => rfl
      | ok value =>
          show Except.ok value >>= _ = Except.map _ (Except.ok value >>= _)
          cases r.written.find? ref with
          | none => rfl
          | some labels =>
              cases network.verifyLoads with
              | false => rfl
              | true =>
                  show (ensureLabels _ labels value (some r.next)).mapError Failure.fault >>= _ =
                    Except.map _ ((ensureLabels _ labels value (some r.next)).mapError
                      Failure.fault >>= _)
                  cases ensureLabels _ labels value (some r.next) with
                  | error fault => rfl
                  | ok _ => rfl

theorem loadAll_recast (store : Store) (refs : List StoreRef) (values : List Value) :
    loadAll network store (m.run r) refs values =
      match loadAll network store r refs values with
      | .ok (values, r) => .ok (values, m.run r)
      | .error (failure, r) => .error (failure, m.run r) := by
  induction refs generalizing r values with
  | nil => rfl
  | cons ref rest ih =>
      unfold loadAll
      rw [load_recast]
      cases load network store r ref with
      | error failure => rfl
      | ok pair => exact ih (values ++ [pair.1])

theorem mergeInputs_recast (store : Store) (loads : List StoreRef) :
    mergeInputs network store (m.run r) loads =
      match mergeInputs network store r loads with
      | .ok (inputs, r) => .ok (inputs, m.run r)
      | .error (failure, r) => .error (failure, m.run r) := by
  unfold mergeInputs
  rw [recast_loaded, recast_gathered, loadAll_recast]
  split
  · rfl
  · rcases loadAll network store r loads r.gathered with ⟨failure, r₁⟩ | ⟨inputs, r₁⟩
    · rfl
    · rfl

theorem runLoad_recast (step : Step) (origin : StoreRef) :
    runLoad network w (m.run r) (m.step r.next step) origin =
      (runLoad network w r step origin).map (fun w => w) m.turn := by
  unfold runLoad
  rw [load_recast]
  cases read : load network w.store r origin with
  | error failure => exact congrArg (w, ·) (stopped_recast failure)
  | ok pair =>
      obtain ⟨value, r₁⟩ := pair
      obtain ⟨rfl, _⟩ := load_eq_ok read
      rfl

theorem runMergeEnd_recast (step : Step) (loads : List StoreRef) (id : String) (params : Params) :
    runMergeEnd network w (m.run r) (m.step r.next step) loads id params =
      (runMergeEnd network w r step loads id params).map (fun w => w) m.turn := by
  unfold runMergeEnd
  rw [mergeInputs_recast]
  cases read : mergeInputs network w.store r loads with
  | error pair => exact congrArg (w, ·) (stopped_recast pair.1)
  | ok pair =>
      obtain ⟨inputs, r₁⟩ := pair
      obtain rfl := mergeInputs_run read
      dsimp only
      rw [recast_location, recast_next]
      rcases w.applyOperator network _ id inputs params _ with ⟨_ | fault | output, w₁⟩
      · rfl
      · rfl
      · rfl

theorem runMerge_recast (step : Step) (sources : List String) (loads : List StoreRef) (id : String)
    (params : Params) :
    runMerge network w (m.run r) (m.step r.next step) sources loads id params =
      (runMerge network w r step sources loads id params).map (fun w => w) m.turn := by
  unfold runMerge
  rw [recast_gathered, recast_location, recast_context, recast_timeout]
  cases sources[r.gathered.length]? with
  | none => exact runMergeEnd_recast step loads id params
  | some source =>
      dsimp only
      rcases w.callSource network r.location source r.context r.timeout with
        ⟨_ | fault | value, w₁⟩
      · rfl
      · rfl
      · rfl

theorem conclude_recast (shown : StepTrace) (delivered : Value) :
    conclude w (m.run r) (m.entry shown) delivered =
      (conclude w r shown delivered).map (fun w => w) m.turn := by
  unfold conclude
  show (if delivered.isTainted && (r.origins \ delivered.labels).isEmpty then _ else _) =
    Prod.map _ _ (if delivered.isTainted && (r.origins \ delivered.labels).isEmpty then _ else _)
  split
  · rfl
  · rfl

theorem runSink_recast (step : Step) (id : String) :
    runSink network w (m.run r) (m.step r.next step) id =
      (runSink network w r step id).map (fun w => w) m.turn := by
  unfold runSink
  rw [recast_top?, recast_location, recast_timeout, Recasting.step_kind]
  cases r.top? with
  | none => rfl
  | some value =>
      dsimp only
      rcases w.callSink network r.location id value.forward r.timeout with
        ⟨_ | fault | result, w₁⟩
      · rfl
      · rfl
      · exact conclude_recast (r := { r.heard [result] with
          result := { (r.heard [result]).result with
            final := result.raw
            categoryMatch := some (matchesCategory network r.chain.expected [id]) } })
          { index := r.next, step, labels := result.labels, hops := result.hops
            outcome := .preserved, sinkResults := [result] } _

theorem heardAll_recast (sinks : List String) (results : List SinkResult) :
    (m.run r).heardAll network sinks results = m.run (r.heardAll network sinks results) := by
  have same : (({ m.run r with calls := [] } : Run).heard results).atLast =
    (({ r with calls := [] } : Run).heard results).atLast := recast_atLast (r := r) (m := m)
  unfold heardAll
  dsimp only
  rw [same]
  split <;> rfl

theorem decided_recast (shown : StepTrace) (results : List SinkResult) (rejected : Option Fault)
    (delivered : Value) :
    decided w (m.run r) (m.entry shown) results rejected delivered =
      (decided w r shown results rejected delivered).map (fun w => w) m.turn := by
  unfold decided
  cases rejected with
  | some fault => rfl
  | none =>
      dsimp only
      rw [recast_atLast]
      split
      · exact conclude_recast shown delivered
      · rfl

theorem runFanout_recast (step : Step) (sinks : List String) :
    runFanout network w (m.run r) (m.step r.next step) sinks =
      (runFanout network w r step sinks).map (fun w => w) m.turn := by
  rw [runFanout_eq, runFanout_eq, recast_top?, Recasting.step_kind]
  cases r.top? with
  | none => rfl
  | some value =>
      obtain ⟨w₁, called, _⟩ := fanoutOutcomes_eq network w r value.forward sinks
      have called' : (if (m.run r).calls.isEmpty then
            callSinks network w (m.run r) value.forward sinks
          else ((m.run r).calls.map SinkCall.outcome?, w)) =
          (sinkOutcomes network w r value.forward sinks, w₁) := called
      dsimp only
      rw [called, called']
      dsimp only
      cases (sinkOutcomes network w r value.forward sinks).mapM id with
      | none => rfl
      | some outcomes =>
          dsimp only
          rcases gatherSinks outcomes with fault | ⟨results, rejected⟩
          · rfl
          · dsimp only
            rw [heardAll_recast]
            exact decided_recast
              { index := r.next, step, labels := value.forward.labels
                hops := value.forward.hops, outcome := .preserved, sinkResults := results }
              results rejected value.forward

/-- What a recast run makes of a step whose operator stays. -/
theorem runStep_recast (fixed : m.step r.next step = step) :
    runStep network w (m.run r) step = (runStep network w r step).map (fun w => w) m.turn := by
  cases step with
  | source id => exact runSource_recast (.source id) id
  | relay id params =>
      show runRelay network w (m.run r) (.relay id params) id params = _
      conv_lhs => rw [← fixed]
      exact runRelay_recast (.relay id params) id params
  | store target => exact runStore_recast (.store target) target
  | load origin => exact runLoad_recast (.load origin) origin
  | merge sources loads id params =>
      exact runMerge_recast (.merge sources loads id params) sources loads id params
  | sink id => exact runSink_recast (.sink id) id
  | fanout sinks => exact runFanout_recast (.fanout sinks) sinks

theorem exhaust_recast : exhaust (m.run r) = m.run (exhaust r) := by
  unfold exhaust
  rw [recast_state, recast_next]
  have length : (m.run r).chain.steps.length = r.chain.steps.length :=
    Recasting.length_chain r.chain
  rw [length]
  split
  · rfl
  · rfl

theorem record_recast (shown : StepTrace) :
    (m.run r).record (m.entry shown) = m.run (r.record shown) := by
  unfold record Recasting.run Recasting.result
  rw [List.map_append]
  rfl

theorem failureEntry_recast (fault : Fault) :
    (m.run r).failureEntry (m.step r.next step) fault = m.entry (r.failureEntry step fault) := by
  unfold failureEntry
  dsimp only
  rw [recast_next]
  split
  · rfl
  · rfl

theorem fail_recast (fault : Fault) :
    fail w (m.run r) (m.step r.next step) fault =
      (fail w r step fault).map (fun w => w) m.run := by
  refine Prod.ext rfl ?_
  rw [fail_run, failureEntry_recast]
  show _ = m.run (fail w r step fault).2
  rw [fail_run]
  exact congrArg (finish · (stateAfter fault) _)
    (record_recast (r := r.heard (r.failureEntry step fault).sinkResults) _)

theorem crash_recast (mishap : Mishap) :
    crash w (m.run r) (m.step r.next step) mishap =
      (crash w r step mishap).map (fun w => w) m.run := by
  refine Prod.ext rfl ?_
  exact congrArg (finish · .failed _) (record_recast (r := r) (r.entry step .notApplicable _))

theorem afterTurn_recast {turn : Turn} (writes : turn.Writes r step) :
    afterTurn (m.step r.next step) (m.run r) w (m.turn turn) =
      (afterTurn step r w turn).map (Prod.map (fun w => w) m.run) := by
  cases turn with
  | stalled => rfl
  | partly after => rfl
  | failed after fault =>
      have failed : fail (w.count (.steps (m.step r.next step).kind)) (m.run after)
          (m.step r.next step) fault =
            (fail (w.count (.steps step.kind)) after step fault).map (fun w => w) m.run := by
        have next : after.next = r.next := writes.next
        rw [Recasting.step_kind, ← next]
        exact fail_recast fault
      exact congrArg some failed
  | crashed after mishap =>
      have crashed : crash (w.count (.steps (m.step r.next step).kind)) (m.run after)
          (m.step r.next step) mishap =
            (crash (w.count (.steps step.kind)) after step mishap).map (fun w => w) m.run := by
        have next : after.next = r.next := writes.next
        rw [Recasting.step_kind, ← next]
        exact crash_recast mishap
      exact congrArg some crashed
  | passed after shown =>
      unfold Recasting.turn afterTurn
      dsimp only
      rw [record_recast, Recasting.step_kind]
      exact congrArg (fun r => some (w.count (.steps step.kind), r)) (exhaust_recast
        (r := { after.record shown with
          next := if after.state.isTerminal then r.next else r.next + 1 }))

/-- The other operator of the relay step that is next makes the same of the active values. -/
def Faithful (m : Recasting) (network : Network) (w : World) (r : Run) : Prop :=
  ∀ id params, r.chain.steps[r.next]? = some (.relay id params) → ∀ step,
    runRelay network w r step (m.relay r.next id params).1 (m.relay r.next id params).2 =
      runRelay network w r step id params

/-- A recast run takes the same turn. -/
theorem advance_recast (faithful : r.state = .running → Faithful m network w r) :
    advance network w (m.run r) =
      (advance network w r).map (Prod.map (fun w => w) m.run) := by
  unfold advance
  rw [recast_state, recast_steps]
  split
  · rename_i running
    cases here : r.chain.steps[r.next]? with
    | none => rfl
    | some step =>
        have same : runStep network w (m.run r) (m.step r.next step) =
            (runStep network w r step).map (fun w => w) m.turn := by
          cases step with
          | relay id params =>
              show _ = (runRelay network w r (.relay id params) id params).map (fun w => w) m.turn
              rw [← faithful running id params here]
              exact runRelay_recast (.relay id params) _ _
          | _ => exact runStep_recast rfl
        rw [Option.map_some]
        dsimp only
        rw [same]
        exact afterTurn_recast (runStep_writes network w r step)
  · rfl

/-! ## Moves and whole runs -/

theorem start_recast : start w (m.run r) = (start w r).map (Prod.map (fun w => w) m.run) := by
  unfold start
  have length : (m.run r).chain.steps.length = r.chain.steps.length :=
    Recasting.length_chain r.chain
  rw [recast_state, length]
  cases r.state.moveTo .running with
  | error mishap => rfl
  | ok state => rfl

theorem close_recast : close w (m.run r) = (close w r).map (Prod.map (fun w => w) m.run) := by
  unfold close
  rw [recast_scopes]
  cases Scope.request.partition (some r.scopes.execution) with
  | error mishap => rfl
  | ok p => rfl

theorem conclusion_recast : conclusion w (m.run r) = m.ending (conclusion w r) := by
  unfold conclusion
  rw [recast_state, close_recast]
  split
  · cases close w r with
    | error mishap => rfl
    | ok closed => rfl
  · rfl

/-- A recast run takes the same turns as long as its operators make the same. -/
theorem takeTurns_recast (turns : Nat)
    (faithful : ∀ n, (takeTurns network n w r).2.state = .running →
      Faithful m network (takeTurns network n w r).1 (takeTurns network n w r).2) :
    takeTurns network turns w (m.run r) =
      (takeTurns network turns w r).map (fun w => w) m.run := by
  induction turns generalizing w r with
  | zero => rfl
  | succ turns ih =>
      have now : r.state = .running → Faithful m network w r := faithful 0
      unfold takeTurns
      rw [advance_recast now]
      cases turned : advance network w r with
      | none => rfl
      | some after =>
          refine ih fun n => ?_
          have later := faithful (n + 1)
          unfold takeTurns at later
          rw [turned] at later
          exact later

theorem turnsLeft_recast : (m.run r).turnsLeft = r.turnsLeft := by
  have counted : ∀ (steps : List Step) (turns : Nat),
      steps.foldl (fun turns step => turns + step.sources.length + 1) turns =
        (steps.map Step.sources).foldl (fun turns sources => turns + sources.length + 1) turns := by
    intro steps turns
    rw [List.foldl_map]
  have sources : (m.run r).chain.steps.map Step.sources = r.chain.steps.map Step.sources := by
    refine List.ext_getElem? fun i => ?_
    have here : (m.run r).chain.steps[i]? = r.chain.steps[i]?.map (m.step i) :=
      Recasting.getElem?_chain r.chain i
    rw [List.getElem?_map, List.getElem?_map, here, Option.map_map]
    exact congrArg (Option.map · _) (funext fun step => Recasting.step_sources i step)
  unfold turnsLeft
  rw [counted, counted, List.map_drop, List.map_drop, sources]
  rfl

/-- A recast run does the same from start to end as long as its operators make the same. -/
theorem run_recast (faithful : ∀ {w₁ r₁}, start w r = .ok (w₁, r₁) → ∀ n,
      (takeTurns network n w₁ r₁).2.state = .running →
        Faithful m network (takeTurns network n w₁ r₁).1 (takeTurns network n w₁ r₁).2) :
    Run.run network w (m.run r) = m.ending (Run.run network w r) := by
  unfold Run.run
  rw [start_recast]
  cases begun : start w r with
  | error mishap => rfl
  | ok first =>
      obtain ⟨w₁, r₁⟩ := first
      show conclusion (takeTurns network (m.run r₁).turnsLeft w₁ (m.run r₁)).1
        (takeTurns network (m.run r₁).turnsLeft w₁ (m.run r₁)).2 = _
      rw [turnsLeft_recast, takeTurns_recast _ (faithful begun)]
      exact conclusion_recast

end Run

/-!
## The id of a run

The id that a run is recorded under is a name and nothing else: under another id
the run does the same and ends in the same way.  The main statement is
`run_named`.
-/

/-- A result under another id. -/
def RunResult.named (id : String) (result : RunResult) : RunResult := { result with runId := id }

namespace Run

/-- A run under another id. -/
def named (id : String) (r : Run) : Run := { r with result := r.result.named id }

/-- The end of the run under another id. -/
def End.named (id : String) : End → End
  | .returned w r => .returned w (r.named id)
  | .raised w r mishap => .raised w (r.named id) mishap
  | .stalled w r => .stalled w (r.named id)

end Run

/-- Runs under another id, with the operators that they have. -/
def Recasting.naming (id : String) : Recasting where
  runId _ := id

namespace Recasting

variable {id : String}

theorem step_naming (i : Nat) (step : Step) : (naming id).step i step = step := by
  cases step <;> rfl

theorem entry_naming (shown : StepTrace) : (naming id).entry shown = shown := by
  unfold entry
  rw [step_naming]

theorem chain_naming (c : Chain) : (naming id).chain c = c := by
  have steps : c.steps.mapIdx (naming id).step = c.steps :=
    List.ext_getElem? fun i => by
      rw [List.getElem?_mapIdx, funext (step_naming i)]
      exact Option.map_id'
  simp only [chain, steps]

theorem run_naming (r : Run) : (naming id).run r = r.named id := by
  unfold run result
  rw [chain_naming, funext entry_naming]
  exact congrArg (fun trace => { r with result := { r.result with runId := id, trace } })
    (List.map_id r.result.trace)

theorem ending_naming (ending : Run.End) : (naming id).ending ending = ending.named id := by
  cases ending with
  | returned w r => exact congrArg (Run.End.returned w) (run_naming r)
  | raised w r mishap => exact congrArg (Run.End.raised w · mishap) (run_naming r)
  | stalled w r => exact congrArg (Run.End.stalled w) (run_naming r)

end Recasting

/-- A run under another id does the same, and ends in the same way. -/
theorem Run.run_named (network : Network) (w : World) (r : Run) (id : String) :
    run network w (r.named id) = (run network w r).named id := by
  rw [← Recasting.run_naming, ← Recasting.ending_naming]
  exact run_recast fun _ _ _ _ _ _ _ => rfl

end TaintFlow
