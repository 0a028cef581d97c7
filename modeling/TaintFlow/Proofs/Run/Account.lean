import TaintFlow.Proofs.Chain.Names
import TaintFlow.Proofs.Run.Application
import TaintFlow.Proofs.Run.Depth
import TaintFlow.Proofs.Run.Hearing
import TaintFlow.Proofs.Run.Loop

/-!
# What a run has called

The account of a run lists what it has called, in order: the sources that it has
asked, the operators that it has applied and the sinks that it has handed a value.
As long as a run goes on, the account tallies with the steps that were done, and
when the sinks of the last step have said something it tallies with the whole
chain.  The main statement is `Account.foretold`.
-/

namespace TaintFlow.Run

/-! ## Calls -/

/-- A call of a component. -/
inductive Call
  /-- A source is asked for a value. -/
  | asked (id : String)
  /-- An operator is applied. -/
  | applied (id : String)
  /-- All sinks of a step have been handed the active value, and this is what they said. -/
  | handed (index : Nat) (outcomes : List (Except Fault SinkResult))

/-- The source that is asked. -/
def Call.source? : Call → Option String
  | .asked id => some id
  | _ => none

/-- The operator that is applied. -/
def Call.operator? : Call → Option String
  | .applied id => some id
  | _ => none

/-- The call of sinks that an event tells of. -/
def Event.handed? : Event → Option Call
  | .delivered index _ outcomes => some (.handed index outcomes)
  | _ => none

/-- The source that the next turn of a run asks. -/
def asks? (r : Run) : Option String :=
  match r.chain.steps[r.next]? with
  | some (.source id) => some id
  | some (.merge sources ..) => sources[r.gathered.length]?
  | _ => none

/-- What the next turn of a run calls. -/
def callsOfTurn (network : Network) (w : World) (r : Run) : List Call :=
  r.asks?.toList.map .asked ++
    ((r.application? network w).toList.map fun applied => .applied applied.operator) ++
      (report network w r).filterMap Event.handed?

/-- What a run has called on its path. -/
inductive Account (network : Network) (rely : World → World → Prop) (w₀ : World) (r₀ : Run) :
    List Call → World → Run → Prop
  | here : Account network rely w₀ r₀ [] w₀ r₀
  /-- The run has taken a turn. -/
  | turned {calls : List Call} {w w' : World} {r r' : Run}
      (before : Account network rely w₀ r₀ calls w r)
      (turn : advance network w r = some (w', r')) :
      Account network rely w₀ r₀ (calls ++ callsOfTurn network w r) w' r'
  /-- The run has done something else. -/
  | moved {calls : List Call} {w w' : World} {r r' : Run}
      (before : Account network rely w₀ r₀ calls w r)
      (move : Move network w r w' r') (noTurn : advance network w r ≠ some (w', r')) :
      Account network rely w₀ r₀ calls w' r'
  /-- Others have done something. -/
  | waited {calls : List Call} {w w' : World} {r : Run}
      (before : Account network rely w₀ r₀ calls w r) (others : rely w w') :
      Account network rely w₀ r₀ calls w' r

variable {network : Network} {rely : World → World → Prop} {w₀ w w' : World} {r₀ r r' : Run}
  {calls : List Call} {step : Step}

/-- Every path has an account. -/
theorem Path.account (path : Path network rely w₀ r₀ w r) :
    ∃ calls, Account network rely w₀ r₀ calls w r := by
  induction path with
  | here => exact ⟨[], .here⟩
  | @moved w w' r r' before move ih =>
      obtain ⟨calls, account⟩ := ih
      by_cases turn : advance network w r = some (w', r')
      · exact ⟨_, account.turned turn⟩
      · exact ⟨calls, account.moved move turn⟩
  | waited before others ih =>
      obtain ⟨calls, account⟩ := ih
      exact ⟨calls, account.waited others⟩

theorem Account.path (account : Account network rely w₀ r₀ calls w r) :
    Path network rely w₀ r₀ w r := by
  induction account with
  | here => exact .here
  | turned before turn ih => exact ih.moved (.turns turn)
  | moved before move noTurn ih => exact ih.moved move
  | waited before others ih => exact ih.waited others

/-- A path from the start of a run follows a course until the run has ended. -/
theorem Path.course (pending : r₀.state = .pending) (path : Path network rely w₀ r₀ w r) :
    r = r₀ ∨ r.state.isTerminal = true ∨
      ∃ log, Course network Anything r₀ log w r := by
  have going : ∀ {w r}, r.state = .running → (r = r₀ ∨ r.state.isTerminal = true ∨
      ∃ log, Course network Anything r₀ log w r) → ∃ log, Course network Anything r₀ log w r := by
    rintro w r running (rfl | terminal | way)
    · cases pending.symm.trans running
    · exact absurd running (not_running_of_isTerminal terminal)
    · exact way
  induction path with
  | here => exact .inl rfl
  | moved before move ih =>
      cases move with
      | begins begun =>
          obtain ⟨idle, _⟩ := start_eq_ok begun
          rcases ih with rfl | terminal | ⟨_, way⟩
          · exact .inr (.inr ⟨[], .started begun⟩)
          · rw [idle] at terminal
            cases terminal
          · exact absurd idle way.state_ne_pending
      | turns turned =>
          obtain ⟨_, way⟩ := going (running_of_advance turned).1 ih
          exact .inr (.inr ⟨_, way.turned turned⟩)
      | readsAhead running here asked read =>
          obtain ⟨_, way⟩ := going running ih
          exact .inr (.inr ⟨_, way.readAhead running here asked read⟩)
      | summons running =>
          obtain ⟨_, way⟩ := going running ih
          exact .inr (.inr ⟨_, way.summoned running⟩)
      | calls position running =>
          obtain ⟨_, way⟩ := going running ih
          exact .inr (.inr ⟨_, way.called position running⟩)
      | hears running named top answer =>
          obtain ⟨_, way⟩ := going running ih
          exact .inr (.inr ⟨_, way.answered running named top answer⟩)
      | misses running named top answer =>
          obtain ⟨_, way⟩ := going running ih
          exact .inr (.inr ⟨_, way.waited trivial⟩)
      | closes terminal unclosed closed =>
          obtain ⟨_, rfl⟩ := close_eq_ok closed
          exact .inr (.inl terminal)
  | waited before others ih =>
      rcases ih with same | terminal | ⟨_, way⟩
      · exact .inl same
      · exact .inr (.inl terminal)
      · exact .inr (.inr ⟨_, way.waited trivial⟩)

theorem Path.course_of_running (pending : r₀.state = .pending)
    (path : Path network rely w₀ r₀ w r) (running : r.state = .running) :
    ∃ log, Course network Anything r₀ log w r := by
  rcases path.course pending with rfl | terminal | way
  · cases pending.symm.trans running
  · exact absurd running (not_running_of_isTerminal terminal)
  · exact way

/-! ## The calls of a turn -/

/-- The calls of a turn that are of a kind to which calls of sinks do not belong. -/
theorem filterMap_callsOfTurn {α : Type} {kind : Call → Option α}
    (noSinks : ∀ index outcomes, kind (.handed index outcomes) = none) (network : Network)
    (w : World) (r : Run) :
    (callsOfTurn network w r).filterMap kind =
      r.asks?.toList.filterMap (fun id => kind (.asked id)) ++
        (r.application? network w).toList.filterMap fun applied =>
          kind (.applied applied.operator) := by
  have none : ((report network w r).filterMap Event.handed?).filterMap kind = [] := by
    rw [List.filterMap_filterMap, List.filterMap_eq_nil_iff]
    intro event _
    cases event with
    | delivered index value outcomes => exact noSinks index outcomes
    | _ => rfl
  unfold callsOfTurn
  rw [List.filterMap_append, List.filterMap_append, none, List.filterMap_map, List.filterMap_map,
    List.append_nil]
  rfl

theorem sources_callsOfTurn (network : Network) (w : World) (r : Run) :
    (callsOfTurn network w r).filterMap Call.source? = r.asks?.toList := by
  rw [filterMap_callsOfTurn fun _ _ => rfl]
  cases r.asks? <;> cases r.application? network w <;> rfl

theorem operators_callsOfTurn (network : Network) (w : World) (r : Run) :
    (callsOfTurn network w r).filterMap Call.operator? =
      (r.application? network w).toList.map Application.operator := by
  rw [filterMap_callsOfTurn fun _ _ => rfl]
  cases r.asks? <;> cases r.application? network w <;> rfl

/-- A turn tells of sinks what its report tells of them. -/
theorem delivered_of_mem_callsOfTurn {index : Nat} {outcomes : List (Except Fault SinkResult)}
    (inside : .handed index outcomes ∈ callsOfTurn network w r) :
    ∃ value, .delivered index value outcomes ∈ report network w r := by
  unfold callsOfTurn at inside
  rcases List.mem_append.mp inside with others | told
  · rcases List.mem_append.mp others with asked | applied
    · obtain ⟨_, _, other⟩ := List.mem_map.mp asked
      cases other
    · obtain ⟨_, _, other⟩ := List.mem_map.mp applied
      cases other
  · obtain ⟨event, there, same⟩ := List.mem_filterMap.mp told
    cases event with
    | delivered i value given =>
        obtain ⟨rfl, rfl⟩ := Call.handed.inj (Option.some.inj same)
        exact ⟨value, there⟩
    | _ => cases same

/-! ## What a step that was done adds -/

/-- A turn that was the last of its step has asked the sources that were left, has applied the
operator and has written down the sinks of the step. -/
structure Adds (network : Network) (w : World) (r : Run) (step : Step) (r' : Run) : Prop where
  sources : r.asks?.toList = step.sources.drop r.gathered.length
  operator : (r.application? network w).map Application.operator = step.operator?
  sinks : r'.result.sinkResults.map SinkResult.sink =
    r.result.sinkResults.map SinkResult.sink ++ step.sinks

/-- All sources of a step but a merge are asked in one turn. -/
theorem asks?_of_other (gathers : Gathers network r) (here : r.chain.steps[r.next]? = some step)
    (notMerge : step.kind ≠ .merge) : r.asks?.toList = step.sources.drop r.gathered.length := by
  rw [(gathers.nil_of_other here notMerge).1]
  unfold asks?
  rw [here]
  cases step with
  | merge sources loads id params => exact absurd rfl notMerge
  | source id => rfl
  | relay id params => rfl
  | store target => rfl
  | load origin => rfl
  | fanout sinks => rfl
  | sink id => rfl

theorem application?_of_relay {id : String} {params : Params} {operator : Operator}
    (here : r.chain.steps[r.next]? = some (.relay id params))
    (found : network.engine.operators.find? id = some operator)
    (some_ : 0 < operator.arity.getD r.stack.length)
    (enough : operator.arity.getD r.stack.length ≤ r.stack.length) :
    r.application? network w =
      some ⟨id, r.youngest (operator.arity.getD r.stack.length), params⟩ := by
  unfold application?
  rw [here]
  dsimp only
  rw [found]
  exact if_neg (by omega)

theorem application?_of_merge {sources : List String} {loads : List StoreRef} {id : String}
    {params : Params} {inputs : List Value} {r₁ : Run}
    (here : r.chain.steps[r.next]? = some (.merge sources loads id params))
    (asked : sources[r.gathered.length]? = none)
    (read : mergeInputs network w.store r loads = .ok (inputs, r₁)) :
    r.application? network w = some ⟨id, inputs, params⟩ := by
  unfold application?
  rw [here]
  dsimp only
  rw [asked]
  dsimp only
  rw [read]

theorem application?_of_other (here : r.chain.steps[r.next]? = some step)
    (noOperator : step.operator? = none) : r.application? network w = none := by
  unfold application?
  rw [here]
  cases step with
  | relay id params => cases noOperator
  | merge sources loads id params => cases noOperator
  | source id => rfl
  | store target => rfl
  | load origin => rfl
  | fanout sinks => rfl
  | sink id => rfl

/-- What a step has added that writes nothing down of sinks. -/
theorem Adds.of_silent (gathers : Gathers network r) (here : r.chain.steps[r.next]? = some step)
    (notMerge : step.kind ≠ .merge)
    (operator : (r.application? network w).map Application.operator = step.operator?)
    (noSinks : step.sinks = []) (same : r'.result.sinkResults = r.result.sinkResults) :
    Adds network w r step r' where
  sources := asks?_of_other gathers here notMerge
  operator := operator
  sinks := by rw [same, noSinks, List.append_nil]

theorem adds_of_passes (gathers : Gathers network r) (poised : Poised network r)
    (here : r.chain.steps[r.next]? = some step)
    (there : ∀ id ∈ step.sinks, network.sinks.has id = true)
    (deed : Deed network w r w' r') (passes : Passes network w r r') :
    Adds network w r step r' := by
  have same : ∀ {other}, r.chain.steps[r.next]? = some other → other = step :=
    fun here' => Option.some.inj (here'.symm.trans here)
  have idle : ∀ {other}, r.chain.steps[r.next]? = some other → other.operator? = none →
      (r.application? network w).map Application.operator = other.operator? := by
    intro other here' none
    rw [application?_of_other here' none, none]
    rfl
  cases deed with
  | took here' =>
      obtain rfl := same here'
      exact .of_silent gathers here nofun (idle here rfl) rfl (passOn_sinkResults _ _)
  | relayed here' found taken some_ enough =>
      obtain rfl := same here'
      subst taken
      refine .of_silent gathers here nofun ?_ rfl (passOn_sinkResults _ _)
      rw [application?_of_relay here found some_ enough]
      rfl
  | stored here' =>
      obtain rfl := same here'
      exact .of_silent gathers here nofun (idle here rfl) rfl (passOn_sinkResults _ _)
  | loaded here' =>
      obtain rfl := same here'
      exact .of_silent gathers here nofun (idle here rfl) rfl (passOn_sinkResults _ _)
  | merged here' asked read =>
      obtain rfl := same here'
      refine ⟨?_, ?_, ?_⟩
      · unfold asks?
        rw [here]
        dsimp only
        rw [asked]
        exact (List.drop_eq_nil_of_le (List.getElem?_eq_none_iff.mp asked)).symm
      · rw [application?_of_merge here asked read]
        rfl
      · exact (congrArg _ (passOn_sinkResults _ _)).trans (List.append_nil _).symm
  | handedOn here' onTheWay top handed heard =>
      obtain rfl := same here'
      obtain ⟨named, atMost⟩ := said_of_handed poised here top there handed
      rw [map_said_of_gatherSinks atMost heard]
      refine ⟨asks?_of_other gathers here nofun, idle here rfl, ?_⟩
      rw [passOn_sinkResults, ← named]
      exact List.map_append
  | gathered collects => exact absurd collects.next passes.next_ne
  | judged judges => exact absurd judges.next passes.next_ne
  | ended ends => exact absurd ends.next passes.next_ne

/-! ## The account of a run on its way -/

/-- A run that is on its way has been so before anything but a turn. -/
theorem Quiet.not_isTerminal (quiet : Quiet r r') (going : r'.state.isTerminal = false) :
    r.state.isTerminal = false := by
  rcases quiet.state with same | ⟨pending, _⟩
  · exact same ▸ going
  · rw [pending]
    rfl

/-- The sources that the next step names. -/
def nextSources (r : Run) : List String :=
  match r.chain.steps[r.next]? with
  | some step => step.sources
  | none => []

theorem nextSources_eq (here : r.chain.steps[r.next]? = some step) :
    r.nextSources = step.sources := by
  unfold nextSources
  rw [here]

/-- What a run has called and written down is what the steps name that were done, and of a merge
that is next the sources that have been asked already. -/
structure Tallies (calls : List Call) (r : Run) : Prop where
  sources : calls.filterMap Call.source? =
    (r.chain.steps.take r.next).flatMap Step.sources ++ r.nextSources.take r.gathered.length
  operators : calls.filterMap Call.operator? =
    (r.chain.steps.take r.next).filterMap Step.operator?
  sinks : r.result.sinkResults.map SinkResult.sink =
    (r.chain.steps.take r.next).flatMap Step.sinks
  steps : r.result.trace.map StepTrace.step = r.chain.steps.take r.next
  handed : ∀ {index outcomes}, .handed index outcomes ∈ calls → index < r.next

theorem take_next_succ (here : r.chain.steps[r.next]? = some step) :
    r.chain.steps.take (r.next + 1) = r.chain.steps.take r.next ++ [step] := by
  rw [List.take_add_one, here]
  rfl

/-- There is an entry for each step that was done. -/
theorem Tallies.length_eq (tallies : Tallies calls r) (here : r.chain.steps[r.next]? = some step) :
    r.result.trace.length = r.next := by
  have less := (List.getElem?_eq_some_iff.mp here).1
  rw [← List.length_map StepTrace.step, tallies.steps, List.length_take]
  exact Nat.min_eq_left (Nat.le_of_lt less)

/-- The sinks that a turn calls are those of its step. -/
theorem index_of_mem_callsOfTurn {index : Nat} {outcomes : List (Except Fault SinkResult)}
    (inside : .handed index outcomes ∈ callsOfTurn network w r) : index = r.next := by
  obtain ⟨value, told⟩ := delivered_of_mem_callsOfTurn inside
  exact (delivered_of_mem_report told).1

/-- A step that was done is added to the account. -/
theorem Tallies.of_passes {shown : StepTrace} (tallies : Tallies calls r)
    (here : r.chain.steps[r.next]? = some step) (passes : Passes network w r r')
    (adds : Adds network w r step r') (records : Records r step r' shown)
    (nil : r'.gathered = []) : Tallies (calls ++ callsOfTurn network w r) r' where
  sources := by
    rw [List.filterMap_append, sources_callsOfTurn, tallies.sources, adds.sources, passes.chain,
      passes.next, take_next_succ here, nextSources_eq here, nil, List.append_assoc,
      List.take_append_drop, List.flatMap_append]
    simp
  operators := by
    rw [List.filterMap_append, operators_callsOfTurn, tallies.operators, passes.chain, passes.next,
      take_next_succ here, List.filterMap_append]
    congr 1
    rw [List.filterMap_cons, ← adds.operator]
    cases r.application? network w <;> rfl
  sinks := by
    rw [adds.sinks, tallies.sinks, passes.chain, passes.next, take_next_succ here,
      List.flatMap_append]
    simp
  steps := by
    rw [records.trace, List.map_append, tallies.steps, passes.chain, passes.next,
      take_next_succ here, ← records.step]
    rfl
  handed inside := by
    rw [passes.next]
    rcases List.mem_append.mp inside with before | now
    · exact Nat.lt_succ_of_lt (tallies.handed before)
    · rw [index_of_mem_callsOfTurn now]
      exact Nat.lt_succ_self r.next

/-- A source that a merge asks is added to the account. -/
theorem Tallies.of_collects {id : String} {value : Value} (tallies : Tallies calls r)
    (collects : Collects network w r id value w' r') :
    Tallies (calls ++ callsOfTurn network w r) r' := by
  obtain ⟨sources, loads, operator, params, here, asked, _⟩ := collects.asked
  obtain rfl := collects.same
  refine ⟨?_, ?_, tallies.sinks, tallies.steps, fun inside => ?_⟩
  · have asks : r.asks? = some id := by
      unfold asks?
      rw [here]
      exact asked
    have more : ((r.entered value.labels).collect value).nextSources.take
        ((r.entered value.labels).collect value).gathered.length =
          r.nextSources.take r.gathered.length ++ [id] := by
      show r.nextSources.take (r.gathered ++ [value]).length = _
      rw [nextSources_eq here, List.length_append]
      show sources.take (r.gathered.length + 1) = _
      rw [List.take_add_one, asked]
      rfl
    rw [List.filterMap_append, sources_callsOfTurn, tallies.sources, asks, more,
      List.append_assoc]
    rfl
  · have none : r.application? network w = none := by
      unfold application?
      rw [here]
      dsimp only
      rw [asked]
    rw [List.filterMap_append, operators_callsOfTurn, tallies.operators, none]
    exact List.append_nil _
  · rcases List.mem_append.mp inside with before | now
    · exact tallies.handed before
    · have nothing := delivered_of_mem_callsOfTurn now
      rw [collects.events] at nothing
      obtain ⟨_, other⟩ := nothing
      cases List.mem_singleton.mp other

/-- Whatever else a run does on its way is not in the account. -/
theorem Tallies.of_move (tallies : Tallies calls r) (move : Move network w r w' r')
    (noTurn : advance network w r ≠ some (w', r')) (going : r.state.isTerminal = false) :
    Tallies calls r' := by
  cases move with
  | begins begun =>
      obtain ⟨_, rfl⟩ := start_eq_ok begun
      exact ⟨tallies.sources, tallies.operators, tallies.sinks, tallies.steps, tallies.handed⟩
  | turns turned => exact absurd turned noTurn
  | readsAhead running here asked read =>
      have all : r.nextSources.length ≤ r.gathered.length := by
        rw [nextSources_eq here]
        exact List.getElem?_eq_none_iff.mp asked
      obtain ⟨found, rfl, _, _, _, rfl⟩ := mergeInputs_eq_ok read
      have longer : r.nextSources.length ≤ (r.gathered ++ found).length := by
        rw [List.length_append]
        exact Nat.le_trans all (Nat.le_add_right _ _)
      have kept : r.nextSources.take r.gathered.length =
          r.nextSources.take (r.gathered ++ found).length := by
        rw [List.take_of_length_le all, List.take_of_length_le longer]
      refine ⟨?_, tallies.operators, tallies.sinks, tallies.steps, tallies.handed⟩
      rw [tallies.sources]
      exact congrArg (_ ++ ·) kept
  | summons running =>
      exact ⟨tallies.sources, tallies.operators, tallies.sinks, tallies.steps, tallies.handed⟩
  | calls position running =>
      exact ⟨tallies.sources, tallies.operators, tallies.sinks, tallies.steps, tallies.handed⟩
  | hears running named top answer =>
      exact ⟨tallies.sources, tallies.operators, tallies.sinks, tallies.steps, tallies.handed⟩
  | misses running named top answer => exact tallies
  | closes terminal unclosed closed => cases going.symm.trans terminal

/-! ## The account of a run that has come to its last sinks -/

/-- What a run has called and written down is what its whole chain names. -/
structure Foretold (network : Network) (calls : List Call) (r : Run) : Prop where
  terminal : r.state.isTerminal = true
  sources : calls.filterMap Call.source? = r.chain.sources
  operators : calls.filterMap Call.operator? = r.chain.operators
  sinks : r.result.sinkResults.map SinkResult.sink = r.chain.sinks
  steps : r.result.trace.map StepTrace.step = r.chain.steps
  category : r.state = .completed →
    r.result.categoryMatch = some (matchesCategory network r.chain.expected r.chain.last.sinks)

/-- A step at which something is said by sinks names no sources and no operator. -/
theorem names_of_handed {value : Value} {outcomes : List (Except Fault SinkResult)}
    (handed : Handed network w r value step outcomes) :
    step.kind ≠ .merge ∧ step.sources = [] ∧ step.operator? = none := by
  rcases handed.sink_or_fanout with ⟨id, rfl⟩ | ⟨sinks, rfl⟩
  · exact ⟨nofun, rfl, rfl⟩
  · exact ⟨nofun, rfl, rfl⟩

theorem Tallies.foretold {value : Value} {outcomes : List (Except Fault SinkResult)}
    (tallies : Tallies calls r) (gathers : Gathers network r) (last : r.next = r.chain.lastIndex)
    (here : r.chain.steps[r.next]? = some step)
    (handed : Handed network w r value.forward step outcomes)
    (named : (outcomes.map said).map SinkResult.sink = step.sinks)
    (hands : Hands network r step value outcomes r') (chain : r'.chain = r.chain) :
    Foretold network (calls ++ callsOfTurn network w r) r' := by
  obtain ⟨notMerge, noSources, noOperator⟩ := names_of_handed handed
  obtain ⟨shown, records, heard, _⟩ := hands.shown
  have all : r.chain.steps.take r.next ++ [step] = r.chain.steps := by
    rw [← take_next_succ here, last, ← r.chain.length_eq, List.take_length]
  have final : r.chain.last = step := by
    rw [last, Chain.steps_lastIndex] at here
    exact Option.some.inj here
  refine ⟨hands.terminal, ?_, ?_, ?_, ?_, fun completed => ?_⟩
  · rw [List.filterMap_append, sources_callsOfTurn, asks?_of_other gathers here notMerge,
      tallies.sources, nextSources_eq here, noSources, chain, Chain.sources]
    conv_rhs => rw [← all]
    rw [List.flatMap_append]
    simp [noSources]
  · rw [List.filterMap_append, operators_callsOfTurn, application?_of_other here noOperator,
      tallies.operators, chain, Chain.operators]
    conv_rhs => rw [← all]
    rw [List.filterMap_append]
    simp [noOperator]
  · rw [records.heard, heard, List.map_append, named, tallies.sinks, chain, Chain.sinks]
    conv_rhs => rw [← all]
    rw [List.flatMap_append]
    simp
  · rw [records.trace, List.map_append, tallies.steps, chain]
    refine (congrArg (_ ++ [·]) records.step).trans all
  · rw [hands.category completed, chain, final]

/-- A run that has ended can only be closed. -/
theorem Move.closes_of_isTerminal (move : Move network w r w' r')
    (terminal : r.state.isTerminal = true) : close w r = .ok (w', r') := by
  have ended : r.state ≠ .running := not_running_of_isTerminal terminal
  cases move with
  | begins begun =>
      rw [(start_eq_ok begun).1] at terminal
      cases terminal
  | turns turned => exact absurd (running_of_advance turned).1 ended
  | readsAhead running here asked read => exact absurd running ended
  | summons running => exact absurd running ended
  | calls position running => exact absurd running ended
  | hears running named top answer => exact absurd running ended
  | misses running named top answer => exact absurd running ended
  | closes terminal unclosed closed => exact closed

theorem Foretold.of_move (foretold : Foretold network calls r) (move : Move network w r w' r') :
    Foretold network calls r' := by
  obtain ⟨_, rfl⟩ := close_eq_ok (move.closes_of_isTerminal foretold.terminal)
  exact ⟨foretold.terminal, foretold.sources, foretold.operators, foretold.sinks, foretold.steps,
    foretold.category⟩

/-! ## Whole accounts -/

variable {c : Chain} {scopes : RunScopes} {runId : String} {context : Payload}
  {timeout : Option Timeout}

namespace Account

/-- A run that is about to take a turn, as its account shows it. -/
theorem ready (account : Account network rely w₀ (fresh c scopes runId context timeout) calls w r)
    (running : r.state = .running) :
    r.chain = c ∧ Gathers network r ∧ Poised network r := by
  obtain ⟨_, way⟩ := account.path.course_of_running rfl running
  exact ⟨way.chain_eq, way.gathers rfl rfl running, way.poised rfl running⟩

/-- The account of a run on its way tallies with the steps that were done. -/
theorem tallies (valid : c.validate network = .ok ())
    (account : Account network rely w₀ (fresh c scopes runId context timeout) calls w r)
    (going : r.state.isTerminal = false) : Tallies calls r := by
  induction account with
  | here => exact ⟨rfl, rfl, rfl, rfl, fun inside => absurd inside List.not_mem_nil⟩
  | turned before turn ih =>
      obtain ⟨running, deed⟩ := deed_of_advance turn
      obtain ⟨rfl, gathers, poised⟩ := before.ready running
      have tallies := ih (by rw [running]; rfl)
      obtain ⟨_, step, here⟩ := running_of_advance turn
      rcases deed.cases_of_running running with passes | ⟨_, _, collects⟩ | ⟨_, _, _, judges⟩ | ends
      · have there := (Chain.registered_of_here valid here).2.1
        rcases advance_records here turn with ⟨unwritten, _⟩ | ⟨shown, records, _⟩
        · exact absurd unwritten.next passes.next_ne
        · exact tallies.of_passes here passes (adds_of_passes gathers poised here there deed passes)
            records (gathers.nil_of_passes deed passes).1
      · exact tallies.of_collects collects
      · cases going.symm.trans judges.isTerminal
      · cases going.symm.trans ends.isTerminal
  | moved before move noTurn ih =>
      rcases move.turns_or_quiet with turned | quiet
      · exact absurd turned noTurn
      · have still := quiet.not_isTerminal going
        exact (ih still).of_move move noTurn still
  | waited before others ih => exact ih going

/-- **What a run calls is what its chain names.**  When the sinks of the last step have said
something, be it that they accept or that they reject the value, the run has asked the sources and
applied the operators of the chain in order, its result names the sinks of the chain in order, and
its trace has an entry for each step.  However the run is interleaved with others, and whatever they
do to the world meanwhile, that stays so. -/
theorem foretold (valid : c.validate network = .ok ())
    (account : Account network rely w₀ (fresh c scopes runId context timeout) calls w r)
    {outcomes : List (Except Fault SinkResult)} (handed : .handed c.lastIndex outcomes ∈ calls) :
    Foretold network calls r := by
  induction account with
  | here => exact absurd handed List.not_mem_nil
  | turned before turn ih =>
      obtain ⟨running, deed⟩ := deed_of_advance turn
      obtain ⟨rfl, gathers, poised⟩ := before.ready running
      rcases List.mem_append.mp handed with earlier | now
      · exact absurd running (not_running_of_isTerminal (ih earlier).terminal)
      · have tallies := before.tallies valid (by rw [running]; rfl)
        obtain ⟨value, told⟩ := delivered_of_mem_callsOfTurn now
        obtain ⟨last, step, active, here, top, rfl, inside⟩ := delivered_of_mem_report told
        have given := handed_of_mem_deliveries top inside
        have there := (Chain.registered_of_here valid here).2.1
        obtain ⟨named, atMost⟩ := said_of_handed poised here top there given
        have hands := hands_of_last running here (decide_eq_true last.symm) top given atMost turn
        exact tallies.foretold gathers last.symm here given named hands (deed.frame running).1
  | moved before move noTurn ih => exact (ih handed).of_move move
  | waited before others ih => exact ih handed

end Account

end TaintFlow.Run
