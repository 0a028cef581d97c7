import TaintFlow.Proofs.Relay.Engine
import TaintFlow.Proofs.Run.Deed

/-!
# Every turn is a deed

The handlers of the steps are opened here, one after the other, to see what a
turn has made of its run; that a step that is allowed goes well is shown in
`Proofs.Run.Progress`.  What a fan-out comes to is a matter of what its sinks say:
`fanoutTurn`.  The main statement is `deed_of_advance`.
-/

namespace TaintFlow.Run

variable {network : Network} {w : World} {r : Run}

theorem advance_eq {step : Step} (running : r.state = .running)
    (here : r.chain.steps[r.next]? = some step) :
    advance network w r =
      afterTurn step r (runStep network w r step).1 (runStep network w r step).2 := by
  unfold advance
  rw [if_pos running, here]

theorem advance_passed {step : Step} {w₁ : World} {after : Run} {entry : StepTrace}
    (running : r.state = .running) (here : r.chain.steps[r.next]? = some step)
    (turn : runStep network w r step = (w₁, .passed after entry))
    (state : after.state = .running) (next : after.next = r.next) :
    advance network w r = some (w₁.count (.steps step.kind), after.passOn entry) := by
  rw [advance_eq running here, turn]
  exact afterTurn_passed state next

theorem report_eq {step : Step} (here : r.chain.steps[r.next]? = some step) :
    report network w r = arrivals network w r step ++ deliveries network w r step ++
      ((if refuses network w r step then [.refused r.next] else []) ++
        (runStep network w r step).2.verdict r.next) := by
  unfold report
  rw [here]

theorem running_of_advance {w' : World} {r' : Run} (turned : advance network w r = some (w', r')) :
    r.state = .running ∧ ∃ step, r.chain.steps[r.next]? = some step := by
  unfold advance at turned
  split at turned
  · rename_i running
    cases here : r.chain.steps[r.next]? with
    | none => simp [here] at turned
    | some step => exact ⟨running, step, rfl⟩
  · exact nomatch turned

theorem afterTurn_stopped (step : Step) (w : World) (r r₁ : Run) (failure : Failure) :
    ∃ w' r', afterTurn step r w (r₁.stopped failure) = some (w', r') ∧ r'.chain = r₁.chain ∧
      r'.next = r₁.next ∧ r'.scopes = r₁.scopes ∧ r'.origins = r₁.origins ∧
      (r'.state = .broken ∨ r'.state = .failed) := by
  cases failure with
  | fault fault =>
      refine ⟨_, _, rfl, rfl, rfl, rfl, rfl, ?_⟩
      by_cases breaks : (fault.atStep (some r₁.next)).kind.breaks = true
      · exact .inl (if_pos breaks)
      · exact .inr (if_neg breaks)
  | mishap mishap => exact ⟨_, _, rfl, rfl, rfl, rfl, rfl, .inr rfl⟩
  | invalid what => exact ⟨_, _, rfl, rfl, rfl, rfl, rfl, .inr rfl⟩

theorem verdict_stopped (r : Run) (failure : Failure) (i : Nat) :
    ∃ reason, (r.stopped failure).verdict i = [.stopped i reason] := by
  cases failure with
  | fault fault => exact ⟨_, rfl⟩
  | mishap mishap => exact ⟨_, rfl⟩
  | invalid what => exact ⟨_, rfl⟩

/-- A turn that gives up its step ends the run, whatever it has read before. -/
theorem Deed.of_stopped {step : Step} {w₁ w' : World} {r' : Run} (r₁ : Run) (failure : Failure)
    (running : r.state = .running) (here : r.chain.steps[r.next]? = some step)
    (turn : runStep network w r step = (w₁, r₁.stopped failure))
    (chain : r₁.chain = r.chain) (next : r₁.next = r.next) (scopes : r₁.scopes = r.scopes)
    (origins : r₁.origins = r.origins ∪ entrants (arrivals network w r step))
    (notAccepted : ∀ i value outcomes, .delivered i value outcomes ∈ deliveries network w r step →
      ¬ Accepted outcomes)
    (turned : advance network w r = some (w', r')) : Deed network w r w' r' := by
  rw [advance_eq running here, turn] at turned
  obtain ⟨_, _, after, chain', next', scopes', origins', state⟩ :=
    afterTurn_stopped step w₁ r r₁ failure
  rw [after] at turned
  obtain ⟨rfl, rfl⟩ := Prod.mk.inj (Option.some.inj turned)
  obtain ⟨reason, verdict⟩ := verdict_stopped r₁ failure r.next
  refine .ended ⟨⟨step, here⟩, chain'.trans chain, next'.trans next, scopes'.trans scopes, ?_,
    state, ?_, ?_, .inr ⟨reason, ?_⟩⟩
  · rw [origins', origins, entrants_report here]
  · intro i passed
    obtain ⟨_, step', after', entry, here', turn', _⟩ := passed_of_mem_report passed
    obtain rfl := Option.some.inj (here.symm.trans here')
    rw [turn] at turn'
    have stopped : (r₁.stopped failure).verdict r.next = (Turn.passed after' entry).verdict r.next :=
      congrArg (Turn.verdict r.next) turn'
    rw [verdict] at stopped
    unfold Turn.verdict at stopped
    dsimp only at stopped
    split at stopped
    · exact nomatch stopped
    · exact nomatch stopped
  · intro i value outcomes inside
    obtain ⟨_, step', _, here', _, _, delivered⟩ := delivered_of_mem_report inside
    obtain rfl := Option.some.inj (here.symm.trans here')
    exact notAccepted i value outcomes delivered
  · rw [report_eq here, turn]
    simp only [verdict, List.mem_append, List.mem_singleton, or_true]

/-- A source gives a value, or its step is given up. -/
theorem deed_of_source {id : String} {w' : World} {r' : Run} (running : r.state = .running)
    (here : r.chain.steps[r.next]? = some (.source id))
    (turned : advance network w r = some (w', r')) : Deed network w r w' r' := by
  have turn : runStep network w r (.source id) = runSource network w r (.source id) id := rfl
  unfold runSource at turn
  cases call : w.callSource network r.location id r.context r.timeout with
  | mk outcome w₁ =>
      rw [call] at turn
      match outcome with
      | none =>
          rw [advance_eq running here, turn] at turned
          exact nomatch turned
      | some (.error fault) =>
          have none : arrivals network w r (.source id) = [] := by simp [arrivals, givenBy, call]
          refine .of_stopped r (.fault fault) running here turn rfl rfl rfl
            ?_ nofun turned
          rw [none, entrants_nil, SortedSet.union_empty]
      | some (.ok value) =>
          rw [advance_passed running here turn running rfl] at turned
          obtain ⟨rfl, rfl⟩ := Prod.mk.inj (Option.some.inj turned)
          refine .took here call ?_
          rw [report_eq here, turn]
          simp [arrivals, givenBy, deliveries, refuses, isDeclined, call, Turn.verdict, entry]

/-- A merge asks a source, which gives a value or ends the run. -/
theorem deed_of_merge_source {sources : List String} {loads : List StoreRef} {operator : String}
    {params : Params} {id : String} {w' : World} {r' : Run} (running : r.state = .running)
    (here : r.chain.steps[r.next]? = some (.merge sources loads operator params))
    (asked : sources[r.gathered.length]? = some id)
    (turned : advance network w r = some (w', r')) : Deed network w r w' r' := by
  have turn : runStep network w r (.merge sources loads operator params) =
    runMerge network w r (.merge sources loads operator params) sources loads operator params := rfl
  unfold runMerge at turn
  rw [asked] at turn
  cases call : w.callSource network r.location id r.context r.timeout with
  | mk outcome w₁ =>
      dsimp only at turn
      rw [call] at turn
      match outcome with
      | none =>
          rw [advance_eq running here, turn] at turned
          exact nomatch turned
      | some (.error fault) =>
          have none : arrivals network w r (.merge sources loads operator params) = [] := by
            simp [arrivals, asked, givenBy, call]
          refine .of_stopped r (.fault fault) running here turn rfl rfl rfl
            ?_ nofun turned
          rw [none, entrants_nil, SortedSet.union_empty]
      | some (.ok value) =>
          rw [advance_eq running here, turn] at turned
          obtain ⟨rfl, rfl⟩ := Prod.mk.inj (Option.some.inj turned)
          refine .gathered ⟨⟨_, _, _, _, here, asked, call⟩, rfl, ?_⟩
          rw [report_eq here, turn]
          simp [arrivals, asked, givenBy, deliveries, refuses, isDeclined, call, Turn.verdict]

/-- An operator is applied, or its step is given up. -/
theorem deed_of_relay {id : String} {params : Params} {w' : World} {r' : Run}
    (running : r.state = .running) (here : r.chain.steps[r.next]? = some (.relay id params))
    (turned : advance network w r = some (w', r')) : Deed network w r w' r' := by
  have turn : runStep network w r (.relay id params) =
    runRelay network w r (.relay id params) id params := rfl
  have stop : ∀ {w₁ fault}, runStep network w r (.relay id params) = (w₁, .failed r fault) →
      Deed network w r w' r' := by
    intro w₁ fault turn
    refine .of_stopped r (.fault fault) running here turn rfl rfl rfl
      ?_ nofun turned
    simp only [arrivals, entrants_nil, SortedSet.union_empty]
  unfold runRelay at turn
  cases got : network.engine.get id with
  | error fault =>
      rw [got] at turn
      exact stop turn
  | ok operator =>
      rw [got] at turn
      dsimp only at turn
      split at turn
      · exact stop turn
      · rename_i enough
        obtain ⟨some_, enough⟩ := not_or.mp enough
        cases call : w.applyOperator network r.location id
            (r.youngest (operator.arity.getD r.stack.length)) params (some r.next) with
        | mk outcome w₁ =>
            have same : w.applyOperator network r.location id
                (r.stack.drop (r.stack.length - operator.arity.getD r.stack.length)) params
                (some r.next) = (outcome, w₁) := call
            rw [same] at turn
            match outcome with
            | none =>
                rw [advance_eq running here, turn] at turned
                exact nomatch turned
            | some (.error fault) => exact stop turn
            | some (.ok output) =>
                rw [advance_passed running here turn running rfl] at turned
                obtain ⟨rfl, rfl⟩ := Prod.mk.inj (Option.some.inj turned)
                have found := Engine.get_eq_ok.mp got
                refine .relayed here found rfl (Nat.pos_of_ne_zero some_) (Nat.le_of_not_lt enough)
                  call ?_
                rw [report_eq here, turn]
                simp [arrivals, deliveries, refuses, operatorDeclines, found, same, Turn.verdict,
                  entry]

/-- The active value is written, if there is one and its scope has a partition. -/
theorem deed_of_store {target : StoreRef} {w' : World} {r' : Run} (running : r.state = .running)
    (here : r.chain.steps[r.next]? = some (.store target))
    (turned : advance network w r = some (w', r')) : Deed network w r w' r' := by
  have turn : runStep network w r (.store target) = runStore w r (.store target) target := rfl
  have stop : ∀ w₁ failure, runStep network w r (.store target) = (w₁, r.stopped failure) →
      Deed network w r w' r' := by
    intro w₁ failure turn
    refine .of_stopped _ _ running here turn rfl rfl rfl ?_ nofun turned
    simp only [arrivals, entrants_nil, SortedSet.union_empty]
  unfold runStore at turn
  cases top : r.top? with
  | none =>
      rw [top] at turn
      exact stop _ (.fault _) turn
  | some value =>
      rw [top] at turn
      dsimp only at turn
      cases place : target.scope.partition (r.scopes.idFor target.scope) with
      | error mishap =>
          rw [place] at turn
          exact stop _ (.mishap mishap) turn
      | ok p =>
          rw [place] at turn
          rw [advance_passed running here turn running rfl] at turned
          obtain ⟨rfl, rfl⟩ := Prod.mk.inj (Option.some.inj turned)
          refine .stored here top place ?_
          rw [report_eq here, turn]
          simp [arrivals, deliveries, refuses, Turn.verdict]

/-- A stored value is read, or its step is given up. -/
theorem deed_of_load {origin : StoreRef} {w' : World} {r' : Run} (running : r.state = .running)
    (here : r.chain.steps[r.next]? = some (.load origin))
    (turned : advance network w r = some (w', r')) : Deed network w r w' r' := by
  have turn : runStep network w r (.load origin) = runLoad network w r (.load origin) origin := rfl
  unfold runLoad at turn
  cases read : load network w.store r origin with
  | error failure =>
      rw [read] at turn
      refine .of_stopped _ _ running here turn rfl rfl rfl ?_ nofun turned
      simp only [arrivals, readings, read, entrants_nil, SortedSet.union_empty]
  | ok pair =>
      obtain ⟨value, r₁⟩ := pair
      obtain ⟨rfl, _⟩ := load_eq_ok read
      rw [read] at turn
      rw [advance_passed running here turn running rfl] at turned
      obtain ⟨rfl, rfl⟩ := Prod.mk.inj (Option.some.inj turned)
      refine .loaded here read ?_
      rw [report_eq here, turn]
      simp [arrivals, readings, deliveries, refuses, read, Except.isOk, Except.toBool, Turn.verdict,
        entry]

/-- A merge that has asked its sources reads what it reads from the store and applies its
operator, or is given up. -/
theorem deed_of_merge_end {sources : List String} {loads : List StoreRef} {operator : String}
    {params : Params} {w' : World} {r' : Run} (running : r.state = .running)
    (here : r.chain.steps[r.next]? = some (.merge sources loads operator params))
    (asked : sources[r.gathered.length]? = none)
    (turned : advance network w r = some (w', r')) : Deed network w r w' r' := by
  have turn : runStep network w r (.merge sources loads operator params) =
    runMerge network w r (.merge sources loads operator params) sources loads operator params := rfl
  have arrive : arrivals network w r (.merge sources loads operator params) =
      pendingReadings network w.store r loads := by
    simp only [arrivals, asked]
  unfold runMerge at turn
  rw [asked] at turn
  dsimp only at turn
  unfold runMergeEnd at turn
  cases read : mergeInputs network w.store r loads with
  | error pair =>
      obtain ⟨failure, r₁⟩ := pair
      obtain rfl := mergeInputs_eq_error read
      rw [read] at turn
      refine .of_stopped _ _ running here turn rfl rfl rfl ?_ nofun turned
      rw [arrive]
      rfl
  | ok pair =>
      obtain ⟨inputs, r₁⟩ := pair
      obtain ⟨found, _, _, _, _, after⟩ := mergeInputs_eq_ok read
      have next : r₁.next = r.next := by rw [after]; rfl
      have location : r₁.location = r.location := by rw [after]; rfl
      have chain : r₁.chain = r.chain := by rw [after]; rfl
      have scopes : r₁.scopes = r.scopes := by rw [after]; rfl
      have state : r₁.state = .running := by rw [after]; exact running
      have origins : r₁.origins = r.origins ∪
          entrants (arrivals network w r (.merge sources loads operator params)) := by
        rw [after, arrive]
        rfl
      rw [read] at turn
      dsimp only at turn
      cases call : w.applyOperator network r.location operator inputs params (some r.next) with
      | mk outcome w₁ =>
          have same : w.applyOperator network r₁.location operator inputs params (some r₁.next) =
              (outcome, w₁) := by
            rw [location, next]
            exact call
          rw [same] at turn
          match outcome with
          | none =>
              rw [advance_eq running here, turn] at turned
              exact nomatch turned
          | some (.error fault) =>
              exact .of_stopped r₁ (.fault fault) running here turn chain next
                scopes origins nofun turned
          | some (.ok output) =>
              rw [advance_passed running here turn state next] at turned
              obtain ⟨rfl, rfl⟩ := Prod.mk.inj (Option.some.inj turned)
              have events : report network w r =
                  pendingReadings network w.store r loads ++ [.passed r.next] := by
                have given : operatorDeclines network w r operator inputs params = false := by
                  unfold operatorDeclines
                  rw [call]
                  cases network.engine.operators.find? operator <;> simp
                rw [report_eq here, turn, arrive]
                simp [deliveries, refuses, asked, read, given, Turn.verdict, entry]
              have joined : (r₁.joined output).shown (.merge sources loads operator params)
                  (classify inputs output) =
                    ((r.entered (entrants (pendingReadings network w.store r loads))).joined
                      output).shown (.merge sources loads operator params)
                        (classify inputs output) := by
                rw [after]
                rfl
              have deed := Deed.merged here asked read call events
              rw [← joined] at deed
              exact deed

/-- The verdict of the last step: the run is completed exactly if every label has arrived. -/
theorem conclude_spec (w : World) (r : Run) (shown : StepTrace) (delivered : Value)
    (clean : shown.error = none) :
    ∃ w₁ error shown', conclude w r shown delivered = (w₁, .passed (r.finish
        (if r.isWhole delivered then .completed else .broken) error) shown') ∧
      w₁.store = w.store ∧ shown'.error.isNone = r.isWhole delivered := by
  unfold conclude
  cases whole : r.isWhole delivered with
  | true =>
      have condition : (delivered.isTainted && (r.origins \ delivered.labels).isEmpty) = true :=
        whole
      refine ⟨w, none, shown, ?_, rfl, by rw [clean]; rfl⟩
      simp only [condition, if_true]
  | false =>
      have condition : ¬ (delivered.isTainted && (r.origins \ delivered.labels).isEmpty) = true :=
        Bool.eq_false_iff.mp whole
      exact ⟨_, _, _, if_neg condition, rfl, rfl⟩

/-- A turn at which the last sinks have accepted is the last of its run. -/
theorem Deed.of_concluded {step : Step} {value : Value} {w₁ w' : World} {r₁ r' : Run}
    {shown : StepTrace} (outcomes : List (Except Fault SinkResult))
    (running : r.state = .running) (here : r.chain.steps[r.next]? = some step)
    (concludes : step.kind = .sink ∨ step.kind = .fanout ∧ r.atLast = true)
    (turn : runStep network w r step = conclude w₁ r₁ shown value.forward)
    (clean : shown.error = none)
    (same : r₁ = { r with calls := r₁.calls, result := r₁.result })
    (scopes : r₁.scopes = r.scopes) (store : w₁.store = w.store)
    (top : r.top? = some value) (handed : Handed network w r value.forward step outcomes)
    (accepted : Accepted outcomes)
    (delivered : arrivals network w r step ++ deliveries network w r step =
      [.delivered r.next value.forward outcomes])
    (willing : refuses network w r step = false)
    (turned : advance network w r = some (w', r')) : Deed network w r w' r' := by
  obtain ⟨w₂, error, shown', concluded, store', clean'⟩ :=
    conclude_spec w₁ r₁ shown value.forward clean
  have whole : r₁.isWhole value.forward = r.isWhole value.forward := by
    rw [same]
    rfl
  rw [concluded, whole] at turn
  rw [whole] at clean'
  rw [advance_eq running here, turn, afterTurn_ended] at turned
  · obtain ⟨rfl, rfl⟩ := Prod.mk.inj (Option.some.inj turned)
    refine .judged ⟨here, concludes, top, handed, accepted, store'.trans store, ?_, scopes, rfl,
      ?_⟩
    · rw [same]
      rfl
    · rw [report_eq here, delivered, willing, turn]
      simp [Turn.verdict, clean']
  · show (if r.isWhole value.forward then RunState.completed else .broken).isTerminal = true
    split <;> rfl
  · rw [same]
    rfl

/-- A sink ends the run. -/
theorem deed_of_sink {id : String} {w' : World} {r' : Run} (running : r.state = .running)
    (here : r.chain.steps[r.next]? = some (.sink id))
    (turned : advance network w r = some (w', r')) : Deed network w r w' r' := by
  have turn : runStep network w r (.sink id) = runSink network w r (.sink id) id := rfl
  unfold runSink at turn
  cases top : r.top? with
  | none =>
      rw [top] at turn
      refine .of_stopped _ (.fault _) running here turn rfl rfl rfl ?_ ?_ turned
      · simp only [arrivals, entrants_nil, SortedSet.union_empty]
      · intro i value outcomes inside
        simp [deliveries, top] at inside
  | some value =>
      rw [top] at turn
      dsimp only at turn
      cases call : w.callSink network r.location id value.forward r.timeout with
      | mk outcome w₁ =>
          rw [call] at turn
          match outcome with
          | none =>
              rw [advance_eq running here, turn] at turned
              exact nomatch turned
          | some (.error fault) =>
              refine .of_stopped _ (.fault fault) running here turn rfl rfl rfl ?_ ?_ turned
              · simp only [arrivals, entrants_nil, SortedSet.union_empty]
              · intro i active outcomes inside accepted
                have same : outcomes = [.error fault] := by
                  simp [deliveries, top, call] at inside
                  exact inside.2.2
                rw [same] at accepted
                exact nomatch accepted _ List.mem_cons_self
          | some (.ok result) =>
              refine .of_concluded [.ok result] running here (.inl rfl) turn rfl rfl
                rfl (World.store_of_callSink call) top ⟨_, rfl, by rw [call]⟩ ?_ ?_ ?_ turned
              · intro one inside
                rw [List.mem_singleton.mp inside]
                rfl
              · simp [arrivals, deliveries, top, call]
              · simp [refuses, top, call, isDeclined]

/-- What the sinks of a fan-out say, one by one or at once, and the world after them. -/
theorem fanoutOutcomes_eq (network : Network) (w : World) (r : Run) (value : Value)
    (sinks : List String) :
    ∃ w₁, (if r.calls.isEmpty then callSinks network w r value sinks
        else (r.calls.map SinkCall.outcome?, w)) = (sinkOutcomes network w r value sinks, w₁) ∧
      w₁.store = w.store := by
  unfold sinkOutcomes
  split
  · exact ⟨_, rfl, (callSinks_answers network w r value sinks).2⟩
  · exact ⟨w, rfl, rfl⟩

/-- The run in which all sinks of a step have been heard. -/
def heardAll (network : Network) (r : Run) (sinks : List String) (results : List SinkResult) :
    Run :=
  let r := { r with calls := [] }.heard results
  if r.atLast then { r with result := { r.result with
      final := .list (results.map SinkResult.raw)
      categoryMatch := some (matchesCategory network r.chain.expected sinks) } }
  else r

/-- What becomes of a run in which all sinks of a step have been heard. -/
def decided (w : World) (r : Run) (shown : StepTrace) (results : List SinkResult)
    (rejected : Option Fault) (delivered : Value) : World × Turn :=
  match rejected with
  | some fault =>
    let error := { fault with step := some r.next }.record
    let count := (results.filter fun result => !result.accepted).length
    (w.say r.location (.fanoutRejected r.chain.id r.next count results.length),
      .passed (r.finish .failed (some error)) { shown with error := some error })
  | none => if r.atLast then conclude w r shown delivered else (w, .passed r shown)

/-- A fan-out hears all its sinks and decides then. -/
theorem runFanout_eq (network : Network) (w : World) (r : Run) (step : Step) (sinks : List String) :
    runFanout network w r step sinks =
      match r.top? with
      | none => (w, .failed r ⟨.noActiveValue step.kind, some r.next⟩)
      | some value =>
        let (outcomes, w) :=
          if r.calls.isEmpty then callSinks network w r value.forward sinks
          else (r.calls.map SinkCall.outcome?, w)
        match outcomes.mapM id with
        | none => (w, .stalled)
        | some outcomes =>
          match gatherSinks outcomes with
          | .error fault => (w, .failed { r with calls := [] } fault)
          | .ok (results, rejected) =>
            decided w (r.heardAll network sinks results)
              { index := r.next, step, labels := value.forward.labels, hops := value.forward.hops
                outcome := .preserved, sinkResults := results } results rejected value.forward :=
  rfl

/-- Hearing sinks changes nothing of a run but its result, and ends their calls. -/
theorem exists_heardAll (network : Network) (r : Run) (sinks : List String)
    (results : List SinkResult) :
    ∃ final categoryMatch, r.heardAll network sinks results =
      { r with calls := [], result := { r.result with
          sinkResults := r.result.sinkResults ++ results, final, categoryMatch } } := by
  unfold heardAll
  dsimp only
  split
  · exact ⟨_, _, rfl⟩
  · exact ⟨r.result.final, r.result.categoryMatch, rfl⟩

/-- At the last step the result is theirs. -/
theorem heardAll_last (last : r.atLast = true) (sinks : List String) (results : List SinkResult) :
    r.heardAll network sinks results =
      { r with calls := [], result := { r.result with
          sinkResults := r.result.sinkResults ++ results
          final := .list (results.map SinkResult.raw)
          categoryMatch := some (matchesCategory network r.chain.expected sinks) } } :=
  if_pos last

/-- On the way nothing is said of the end of the run. -/
theorem heardAll_onTheWay (onTheWay : r.atLast = false) (sinks : List String)
    (results : List SinkResult) :
    r.heardAll network sinks results = { r with calls := [] }.heard results :=
  if_neg (Bool.eq_false_iff.mp onTheWay)

/-- What is written down of a fan-out whose sinks have been heard. -/
def fanoutEntry (r : Run) (step : Step) (delivered : Value) (results : List SinkResult) : StepTrace :=
  { index := r.next, step, labels := delivered.labels, hops := delivered.hops
    outcome := .preserved, sinkResults := results }

/-- What becomes of a fan-out with an active value, by what its sinks say. -/
theorem runFanout_of_top {value : Value} (top : r.top? = some value) (network : Network) (w : World)
    (step : Step) (sinks : List String) :
    ∃ w₁, (runFanout network w r step sinks =
      match (sinkOutcomes network w r value.forward sinks).mapM id with
      | none => (w₁, .stalled)
      | some outcomes =>
        match gatherSinks outcomes with
        | .error fault => (w₁, .failed { r with calls := [] } fault)
        | .ok (results, rejected) =>
          decided w₁ (r.heardAll network sinks results)
            (r.fanoutEntry step value.forward results) results rejected value.forward) ∧
      w₁.store = w.store := by
  obtain ⟨w₁, called, store⟩ := fanoutOutcomes_eq network w r value.forward sinks
  refine ⟨w₁, ?_, store⟩
  rw [runFanout_eq, top]
  dsimp only
  rw [called]
  rfl

/-- All sinks of a fan-out have been heard. -/
theorem runFanout_of_gathered {value : Value} {sinks : List String}
    {outcomes : List (Except Fault SinkResult)} {results : List SinkResult} {rejected : Option Fault}
    (top : r.top? = some value)
    (whole : (sinkOutcomes network w r value.forward sinks).mapM id = some outcomes)
    (gathered : gatherSinks outcomes = .ok (results, rejected)) (step : Step) :
    ∃ w₁, runFanout network w r step sinks =
      decided w₁ (r.heardAll network sinks results) (r.fanoutEntry step value.forward results)
        results rejected value.forward := by
  obtain ⟨w₁, ran, _⟩ := runFanout_of_top top network w step sinks
  refine ⟨w₁, ?_⟩
  rw [ran, whole]
  dsimp only
  rw [gathered]

/-- The sinks of a fan-out have all said something to the active value. -/
structure Hears (network : Network) (w : World) (r : Run) (sinks : List String) (value : Value)
    (outcomes : List (Except Fault SinkResult)) (w₁ : World) : Prop where
  top : r.top? = some value
  whole : (sinkOutcomes network w r value.forward sinks).mapM id = some outcomes
  store : w₁.store = w.store

/-- What the turn of a fan-out comes to, by what its sinks say. -/
inductive FanoutTurn (network : Network) (w : World) (r : Run) (step : Step)
    (sinks : List String) : World × Turn → Prop
  /-- No value is active. -/
  | empty (top : r.top? = none) :
      FanoutTurn network w r step sinks (w, .failed r ⟨.noActiveValue step.kind, some r.next⟩)
  /-- A sink never answers. -/
  | stalled {value : Value} {w₁ : World} (top : r.top? = some value)
      (missing : (sinkOutcomes network w r value.forward sinks).mapM id = none)
      (store : w₁.store = w.store) : FanoutTurn network w r step sinks (w₁, .stalled)
  /-- A sink fails with more than a rejection. -/
  | failed {value : Value} {outcomes : List (Except Fault SinkResult)} {w₁ : World} {fault : Fault}
      (hears : Hears network w r sinks value outcomes w₁)
      (gathered : gatherSinks outcomes = .error fault) :
      FanoutTurn network w r step sinks (w₁, .failed { r with calls := [] } fault)
  /-- A sink has rejected the value, which ends the run. -/
  | rejected {value : Value} {outcomes : List (Except Fault SinkResult)} {w₁ w₂ : World}
      {results : List SinkResult} {fault : Fault}
      (hears : Hears network w r sinks value outcomes w₁)
      (gathered : gatherSinks outcomes = .ok (results, some fault)) (store : w₂.store = w₁.store) :
      FanoutTurn network w r step sinks
        (w₂, .passed ((r.heardAll network sinks results).finish .failed
            (some { fault with step := some r.next }.record))
          { r.fanoutEntry step value.forward results with
            error := some { fault with step := some r.next }.record })
  /-- The sinks of the last step have accepted the value. -/
  | concluded {value : Value} {outcomes : List (Except Fault SinkResult)} {w₁ : World}
      {results : List SinkResult} (hears : Hears network w r sinks value outcomes w₁)
      (gathered : gatherSinks outcomes = .ok (results, none)) (last : r.atLast = true) :
      FanoutTurn network w r step sinks
        (conclude w₁ (r.heardAll network sinks results)
          (r.fanoutEntry step value.forward results) value.forward)
  /-- Sinks on the way have accepted the value. -/
  | passed {value : Value} {outcomes : List (Except Fault SinkResult)} {w₁ : World}
      {results : List SinkResult} (hears : Hears network w r sinks value outcomes w₁)
      (gathered : gatherSinks outcomes = .ok (results, none)) (onTheWay : r.atLast = false) :
      FanoutTurn network w r step sinks
        (w₁, .passed ({ r with calls := [] }.heard results)
          (r.fanoutEntry step value.forward results))

theorem fanoutTurn (network : Network) (w : World) (r : Run) (step : Step) (sinks : List String) :
    FanoutTurn network w r step sinks (runFanout network w r step sinks) := by
  cases top : r.top? with
  | none =>
      rw [runFanout_eq, top]
      exact .empty top
  | some value =>
      obtain ⟨w₁, ran, store⟩ := runFanout_of_top top network w step sinks
      rw [ran]
      cases whole : (sinkOutcomes network w r value.forward sinks).mapM id with
      | none => exact .stalled top whole store
      | some outcomes =>
          have hears : Hears network w r sinks value outcomes w₁ := ⟨top, whole, store⟩
          dsimp only
          cases gathered : gatherSinks outcomes with
          | error fault => exact .failed hears gathered
          | ok pair =>
              obtain ⟨results, rejected⟩ := pair
              obtain ⟨_, _, same⟩ := exists_heardAll network r sinks results
              cases rejected with
              | some fault =>
                  have next : (r.heardAll network sinks results).next = r.next := by rw [same]
                  unfold decided
                  dsimp only
                  rw [next]
                  exact .rejected hears gathered rfl
              | none =>
                  have atLast : (r.heardAll network sinks results).atLast = r.atLast := by
                    rw [same]
                    rfl
                  unfold decided
                  dsimp only
                  rw [atLast]
                  cases last : r.atLast with
                  | true => exact .concluded hears gathered last
                  | false =>
                      rw [heardAll_onTheWay last]
                      exact .passed hears gathered last

/-- If a fan-out is done in a turn, all its sinks have said something. -/
theorem exists_outcomes_of_advance {sinks : List String} {value : Value} {w' : World} {r' : Run}
    (here : r.chain.steps[r.next]? = some (.fanout sinks)) (top : r.top? = some value)
    (turned : advance network w r = some (w', r')) :
    ∃ outcomes : List (Except Fault SinkResult),
      sinkOutcomes network w r value.forward sinks = outcomes.map some := by
  obtain ⟨running, _⟩ := running_of_advance turned
  cases whole : (sinkOutcomes network w r value.forward sinks).mapM id with
  | some outcomes => exact ⟨outcomes, mapM_id_eq_some whole⟩
  | none =>
      obtain ⟨w₁, ran, _⟩ := runFanout_of_top top network w (.fanout sinks) sinks
      rw [whole] at ran
      have stalled : runStep network w r (.fanout sinks) = (w₁, .stalled) := ran
      rw [advance_eq running here, stalled] at turned
      exact nomatch turned

theorem deliveries_of_whole {sinks : List String} {value : Value}
    {outcomes : List (Except Fault SinkResult)} (top : r.top? = some value)
    (whole : (sinkOutcomes network w r value.forward sinks).mapM id = some outcomes) :
    deliveries network w r (.fanout sinks) = [.delivered r.next value.forward outcomes] := by
  simp only [deliveries, top, whole]

/-- A turn in which one of several sinks has rejected the value ends the run. -/
theorem Deed.of_rejected {sinks : List String} {value : Value}
    {outcomes : List (Except Fault SinkResult)} {fault : Fault} {w₁ w₂ w' : World} {r₁ r' : Run}
    {shown : StepTrace} (running : r.state = .running)
    (here : r.chain.steps[r.next]? = some (.fanout sinks))
    (hears : Hears network w r sinks value outcomes w₁)
    (rejects : .error fault ∈ outcomes ∧ fault.kind = .sinkRejected)
    (turn : runStep network w r (.fanout sinks) = (w₂, .passed r₁ shown))
    (faulty : shown.error.isNone = false)
    (same : r₁ = { r with calls := [], result := r₁.result }) (scopes : r₁.scopes = r.scopes)
    (state : r₁.state = .failed) (turned : advance network w r = some (w', r')) :
    Deed network w r w' r' := by
  have given := mapM_id_eq_some hears.whole
  obtain ⟨inside, kind⟩ := rejects
  have declines : refuses network w r (.fanout sinks) = true := by
    simp only [refuses, hears.top, given, List.any_map, List.any_eq_true]
    exact ⟨_, inside, by simp [isDeclined, kind]⟩
  have events : report network w r =
      [.delivered r.next value.forward outcomes, .refused r.next] := by
    rw [report_eq here, deliveries_of_whole hears.top hears.whole, declines, turn]
    simp [Turn.verdict, faulty, arrivals]
  rw [advance_eq running here, turn,
    afterTurn_ended (by rw [state]; rfl) (by rw [same])] at turned
  obtain ⟨rfl, rfl⟩ := Prod.mk.inj (Option.some.inj turned)
  refine .ended ⟨⟨_, here⟩, by rw [same]; rfl, by rw [same]; rfl, scopes, ?_, .inr state, ?_, ?_,
    .inl ?_⟩
  · rw [events, same]
    exact (SortedSet.union_empty r.origins).symm
  · intro i passed
    simp [events] at passed
  · intro i active given there accepted
    have same : given = outcomes := by
      simp [events] at there
      exact there.2.2
    rw [same] at accepted
    exact nomatch accepted _ inside
  · simp [events]

/-- Several sinks let the run go on, or end it if one of them rejects the value or if there is
no step after them. -/
theorem deed_of_fanout {sinks : List String} {w' : World} {r' : Run} (running : r.state = .running)
    (here : r.chain.steps[r.next]? = some (.fanout sinks))
    (turned : advance network w r = some (w', r')) : Deed network w r w' r' := by
  have comes := fanoutTurn network w r (.fanout sinks) sinks
  generalize ran : runFanout network w r (.fanout sinks) sinks = result at comes
  have turn : runStep network w r (.fanout sinks) = result := ran
  have willing {value : Value} {outcomes : List (Except Fault SinkResult)} {w₁ : World}
      {results : List SinkResult} (hears : Hears network w r sinks value outcomes w₁)
      (gathered : gatherSinks outcomes = .ok (results, none)) :
      refuses network w r (.fanout sinks) = false := by
    simp only [refuses, hears.top, mapM_id_eq_some hears.whole]
    exact not_isDeclined_of_accepted (gatherSinks_eq_ok_none gathered)
  cases comes with
  | empty top =>
      refine .of_stopped _ (.fault _) running here turn rfl rfl rfl ?_ ?_ turned
      · simp only [arrivals, entrants_nil, SortedSet.union_empty]
      · intro i value outcomes inside
        simp [deliveries, top] at inside
  | stalled =>
      rw [advance_eq running here, turn] at turned
      exact nomatch turned
  | @failed value outcomes w₁ fault hears gathered =>
      refine .of_stopped _ (.fault fault) running here turn rfl rfl rfl ?_ ?_ turned
      · simp only [arrivals, entrants_nil, SortedSet.union_empty]
      · intro i active given inside accepted
        rw [deliveries_of_whole hears.top hears.whole] at inside
        rw [(Event.delivered.inj (List.mem_singleton.mp inside)).2.2] at accepted
        obtain ⟨results, fine⟩ := gatherSinks_of_accepted accepted
        exact nomatch gathered.symm.trans fine
  | @rejected value outcomes w₁ w₂ results fault hears gathered store =>
      obtain ⟨_, _, same⟩ := exists_heardAll network r sinks results
      rw [same] at turn
      exact .of_rejected running here hears (gatherSinks_eq_ok_some gathered) turn rfl rfl rfl rfl
        turned
  | @concluded value outcomes w₁ results hears gathered last =>
      obtain ⟨_, _, same⟩ := exists_heardAll network r sinks results
      rw [same] at turn
      exact .of_concluded outcomes running here (.inr ⟨rfl, last⟩) turn rfl rfl rfl hears.store
        hears.top (mapM_id_eq_some hears.whole) (gatherSinks_eq_ok_none gathered)
        (deliveries_of_whole hears.top hears.whole) (willing hears gathered) turned
  | @passed value outcomes w₁ results hears gathered onTheWay =>
      rw [advance_passed running here turn running rfl] at turned
      obtain ⟨rfl, rfl⟩ := Prod.mk.inj (Option.some.inj turned)
      refine .handedOn here onTheWay hears.top (mapM_id_eq_some hears.whole) gathered hears.store ?_
      rw [report_eq here, deliveries_of_whole hears.top hears.whole, willing hears gathered, turn]
      rfl

/-- Every turn is one of the deeds. -/
theorem deed_of_advance {w' : World} {r' : Run} (turned : advance network w r = some (w', r')) :
    r.state = .running ∧ Deed network w r w' r' := by
  obtain ⟨running, step, here⟩ := running_of_advance turned
  refine ⟨running, ?_⟩
  cases step with
  | source id => exact deed_of_source running here turned
  | relay id params => exact deed_of_relay running here turned
  | store target => exact deed_of_store running here turned
  | load origin => exact deed_of_load running here turned
  | fanout sinks => exact deed_of_fanout running here turned
  | sink id => exact deed_of_sink running here turned
  | merge sources loads operator params =>
      cases asked : sources[r.gathered.length]? with
      | some id => exact deed_of_merge_source running here asked turned
      | none => exact deed_of_merge_end running here asked turned

end TaintFlow.Run
