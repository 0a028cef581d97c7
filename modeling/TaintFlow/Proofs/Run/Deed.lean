import TaintFlow.Proofs.Run.Reading

/-!
# The deeds of a run

A turn that goes well does one of eight things; any other ends the run without
completing it.  A deed says what a turn makes of the world and of the run, and
what is reported of it.
-/

namespace TaintFlow.Run

/-! ## Runs after a step -/

/-- The run with one more active value. -/
def push (r : Run) (value : Value) : Run := { r with stack := r.stack ++ [value] }

/-- The result of a run after a step that has not ended it, unless it was the last. -/
def resultAfter (r : Run) (entry : StepTrace) : RunResult :=
  (exhaust { r.record entry with next := r.next + 1 }).result

/-- The run after a step that has not ended it. -/
def passOn (r : Run) (entry : StepTrace) : Run :=
  { r with next := r.next + 1, result := r.resultAfter entry }

@[simp] theorem passOn_chain (r : Run) (entry : StepTrace) : (r.passOn entry).chain = r.chain := rfl

@[simp] theorem passOn_next (r : Run) (entry : StepTrace) :
    (r.passOn entry).next = r.next + 1 := rfl

@[simp] theorem passOn_stack (r : Run) (entry : StepTrace) : (r.passOn entry).stack = r.stack := rfl

@[simp] theorem passOn_gathered (r : Run) (entry : StepTrace) :
    (r.passOn entry).gathered = r.gathered := rfl

@[simp] theorem passOn_calls (r : Run) (entry : StepTrace) : (r.passOn entry).calls = r.calls := rfl

@[simp] theorem passOn_origins (r : Run) (entry : StepTrace) :
    (r.passOn entry).origins = r.origins := rfl

@[simp] theorem passOn_written (r : Run) (entry : StepTrace) :
    (r.passOn entry).written = r.written := rfl

theorem passOn_eq_exhaust (r : Run) (entry : StepTrace) :
    r.passOn entry = exhaust { r.record entry with next := r.next + 1 } := by
  unfold passOn resultAfter exhaust
  split <;> rfl

@[simp] theorem passOn_scopes (r : Run) (entry : StepTrace) :
    (r.passOn entry).scopes = r.scopes := by
  rw [passOn_eq_exhaust]
  unfold exhaust
  split <;> rfl

theorem passOn_trace (r : Run) (entry : StepTrace) :
    (r.passOn entry).result.trace = r.result.trace ++ [entry] := by
  rw [passOn_eq_exhaust]
  unfold exhaust
  split <;> rfl

theorem passOn_sinkResults (r : Run) (entry : StepTrace) :
    (r.passOn entry).result.sinkResults = r.result.sinkResults := by
  rw [passOn_eq_exhaust]
  unfold exhaust
  split <;> rfl

variable {w : World} {r : Run}

/-- A run that has come to the end of its steps is broken. -/
theorem exhaust_state_of_end (r : Run) (running : r.state = .running)
    (last : r.chain.steps.length ≤ r.next) : (exhaust r).state = .broken := by
  rw [exhaust, if_pos ⟨running, last⟩]
  rfl

theorem exhaust_of_not_end (r : Run)
    (notEnd : ¬ (r.state = .running ∧ r.chain.steps.length ≤ r.next)) : exhaust r = r :=
  if_neg notEnd

/-- A run goes on after a step unless it was the last. -/
theorem passOn_state (r : Run) (entry : StepTrace) (running : r.state = .running) :
    (r.passOn entry).state =
      if r.chain.steps.length ≤ r.next + 1 then .broken else .running := by
  rw [passOn_eq_exhaust]
  split
  · rename_i last
    exact exhaust_state_of_end _ running last
  · rename_i notLast
    rw [exhaust_of_not_end _ fun both => notLast both.2]
    exact running

theorem afterTurn_passed {step : Step} {after : Run} {entry : StepTrace}
    (running : after.state = .running) (next : after.next = r.next) :
    afterTurn step r w (.passed after entry) =
      some (w.count (.steps step.kind), after.passOn entry) := by
  rw [passOn_eq_exhaust, next]
  simp only [afterTurn, running, RunState.isTerminal]
  rfl

/-- A step that ends its run stays the next one. -/
theorem afterTurn_ended {step : Step} {after : Run} {entry : StepTrace}
    (ended : after.state.isTerminal = true) (next : after.next = r.next) :
    afterTurn step r w (.passed after entry) =
      some (w.count (.steps step.kind), after.record entry) := by
  have notRunning : after.state ≠ .running := by
    intro running
    rw [running] at ended
    exact nomatch ended
  have still : exhaust { after.record entry with next := after.next } = after.record entry :=
    exhaust_of_not_end _ fun both => notRunning both.1
  simp only [afterTurn, ended, if_true, ← next, still]

/-! ## What a turn makes of a run -/

/-- The youngest active values. -/
def youngest (r : Run) (count : Nat) : List Value := r.stack.drop (r.stack.length - count)

/-- The run with a value in the place of its youngest active values. -/
def collapse (r : Run) (count : Nat) (output : Value) : Run :=
  { r with stack := r.stack.take (r.stack.length - count) ++ [output] }

/-- The run with one more input of a merge. -/
def collect (r : Run) (value : Value) : Run := { r with gathered := r.gathered ++ [value] }

/-- The run with the output of a merge. -/
def joined (r : Run) (output : Value) : Run :=
  { r with stack := r.stack ++ [output], gathered := [], loaded := false }

/-- The run with the labels of a value that it has written. -/
def noted (r : Run) (target : StoreRef) (labels : LabelSet) : Run :=
  { r with written := r.written.put target labels }

/-- The run after a step that shows the active value. -/
def shown (r : Run) (step : Step) (outcome : HopOutcome) : Run := r.passOn (r.entry step outcome)

/-- Does every label that entered the run reach the sinks with a value? -/
def isWhole (r : Run) (delivered : Value) : Bool :=
  delivered.isTainted && (r.origins \ delivered.labels).isEmpty

/-- What the sinks of a step say to a value. -/
def Handed (network : Network) (w : World) (r : Run) (value : Value) :
    Step → List (Except Fault SinkResult) → Prop
  | .sink id, outcomes =>
    ∃ outcome, outcomes = [outcome] ∧
      (w.callSink network r.location id value r.timeout).1 = some outcome
  | .fanout sinks, outcomes => sinkOutcomes network w r value sinks = outcomes.map some
  | _, _ => False

/-- Sinks say something only at a sink and at a fan-out. -/
theorem Handed.sink_or_fanout {network : Network} {value : Value} {step : Step}
    {outcomes : List (Except Fault SinkResult)} (handed : Handed network w r value step outcomes) :
    (∃ id, step = .sink id) ∨ ∃ sinks, step = .fanout sinks := by
  cases step with
  | sink id => exact .inl ⟨id, rfl⟩
  | fanout sinks => exact .inr ⟨sinks, rfl⟩
  | _ => exact handed.elim

/-- A source has given an input of a merge. -/
structure Collects (network : Network) (w : World) (r : Run) (id : String) (value : Value)
    (w' : World) (r' : Run) : Prop where
  asked : ∃ sources loads operator params,
    r.chain.steps[r.next]? = some (.merge sources loads operator params) ∧
      sources[r.gathered.length]? = some id ∧
      w.callSource network r.location id r.context r.timeout = (some (.ok value), w')
  same : r' = (r.entered value.labels).collect value
  events : report network w r = [.gave id value]

/-- The last sinks have accepted the active value, which decides how the run ends. -/
structure Judges (network : Network) (w : World) (r : Run) (step : Step) (value : Value)
    (outcomes : List (Except Fault SinkResult)) (w' : World) (r' : Run) : Prop where
  here : r.chain.steps[r.next]? = some step
  concludes : step.kind = .sink ∨ step.kind = .fanout ∧ r.atLast = true
  top : r.top? = some value
  handed : Handed network w r value.forward step outcomes
  accepted : Accepted outcomes
  store : w'.store = w.store
  same : r' = { r with calls := r'.calls, result := r'.result }
  scopes : r'.scopes = r.scopes
  state : r'.state = if r.isWhole value.forward then .completed else .broken
  events : report network w r = .delivered r.next value.forward outcomes ::
    if r.isWhole value.forward then [.passed r.next] else []

/-- A step was not done, which ends the run. -/
structure Ends (network : Network) (w : World) (r r' : Run) : Prop where
  here : ∃ step, r.chain.steps[r.next]? = some step
  chain : r'.chain = r.chain
  next : r'.next = r.next
  scopes : r'.scopes = r.scopes
  origins : r'.origins = r.origins ∪ entrants (report network w r)
  state : r'.state = .broken ∨ r'.state = .failed
  notPassed : ∀ i, .passed i ∉ report network w r
  notAccepted : ∀ i value outcomes, .delivered i value outcomes ∈ report network w r →
    ¬ Accepted outcomes
  cause : .refused r.next ∈ report network w r ∨
    ∃ failure, .stopped r.next failure ∈ report network w r

/-- What a turn makes of the world and of a run, and what is reported of it. -/
inductive Deed (network : Network) (w : World) (r : Run) : World → Run → Prop
  /-- A source gave a value, which is active now. -/
  | took {id : String} {value : Value} {w' : World}
      (here : r.chain.steps[r.next]? = some (.source id))
      (gave : w.callSource network r.location id r.context r.timeout = (some (.ok value), w'))
      (events : report network w r = [.gave id value, .passed r.next]) :
      Deed network w r (w'.count (.steps .source))
        (((r.entered value.labels).push value).shown (.source id) .introduced)
  /-- A source gave an input of a merge. -/
  | gathered {id : String} {value : Value} {w' : World} {r' : Run}
      (collects : Collects network w r id value w' r') :
      Deed network w r w' r'
  /-- An operator made one value of the youngest active ones. -/
  | relayed {id : String} {params : Params} {operator : Operator} {count : Nat}
      {output : Value} {w' : World}
      (here : r.chain.steps[r.next]? = some (.relay id params))
      (found : network.engine.operators.find? id = some operator)
      (taken : count = operator.arity.getD r.stack.length)
      (some_ : 0 < count) (enough : count ≤ r.stack.length)
      (applied : w.applyOperator network r.location id (r.youngest count) params (some r.next) =
        (some (.ok output), w'))
      (events : report network w r = [.passed r.next]) :
      Deed network w r (w'.count (.steps .relay))
        ((r.collapse count output).shown (.relay id params) (classify (r.youngest count) output))
  /-- The active value was written. -/
  | stored {target : StoreRef} {value : Value} {p : Partition}
      (here : r.chain.steps[r.next]? = some (.store target))
      (top : r.top? = some value)
      (place : target.scope.partition (r.scopes.idFor target.scope) = .ok p)
      (events : report network w r = [.passed r.next]) :
      Deed network w r
        ((w.edit r.location (.put p target.key value.forward value.forward.hops)).count
          (.steps .store))
        ((r.noted target value.labels).passOn
          { index := r.next, step := .store target, labels := value.labels
            hops := value.forward.hops, outcome := .preserved })
  /-- A stored value was read, which is active now. -/
  | loaded {origin : StoreRef} {value : Value}
      (here : r.chain.steps[r.next]? = some (.load origin))
      (read : load network w.store r origin = .ok (value, r.entered value.labels))
      (events : report network w r = [.read origin value, .passed r.next]) :
      Deed network w r (w.count (.steps .load))
        (((r.entered value.labels).push value).shown (.load origin) .introduced)
  /-- The operator of a merge made one value of all its inputs. -/
  | merged {sources : List String} {loads : List StoreRef} {operator : String}
      {params : Params} {inputs : List Value} {output : Value} {r₁ : Run} {w' : World}
      (here : r.chain.steps[r.next]? = some (.merge sources loads operator params))
      (asked : sources[r.gathered.length]? = none)
      (read : mergeInputs network w.store r loads = .ok (inputs, r₁))
      (applied : w.applyOperator network r.location operator inputs params (some r.next) =
        (some (.ok output), w'))
      (events : report network w r =
        pendingReadings network w.store r loads ++ [.passed r.next]) :
      Deed network w r (w'.count (.steps .merge))
        (((r.entered (entrants (pendingReadings network w.store r loads))).joined output).shown
          (.merge sources loads operator params) (classify inputs output))
  /-- Sinks on the way accepted the active value. -/
  | handedOn {sinks : List String} {value : Value}
      {outcomes : List (Except Fault SinkResult)} {results : List SinkResult} {w' : World}
      (here : r.chain.steps[r.next]? = some (.fanout sinks))
      (onTheWay : r.atLast = false)
      (top : r.top? = some value)
      (handed : Handed network w r value.forward (.fanout sinks) outcomes)
      (heard : gatherSinks outcomes = .ok (results, none))
      (store : w'.store = w.store)
      (events : report network w r =
        [.delivered r.next value.forward outcomes, .passed r.next]) :
      Deed network w r w'
        (({ r with calls := [] }.heard results).passOn
          { index := r.next, step := .fanout sinks, labels := value.labels
            hops := value.forward.hops, outcome := .preserved, sinkResults := results })
  /-- The last sinks decided how the run ends. -/
  | judged {step : Step} {value : Value} {outcomes : List (Except Fault SinkResult)}
      {w' : World} {r' : Run}
      (judges : Judges network w r step value outcomes w' r') :
      Deed network w r w' r'
  /-- The run ended before. -/
  | ended {w' : World} {r' : Run} (ends : Ends network w r r') : Deed network w r w' r'

/-! ## What deeds have in common -/

/-- A step was done, and its run goes on with the next one if there is one. -/
structure Passes (network : Network) (w : World) (r r' : Run) : Prop where
  step : ∃ step, r.chain.steps[r.next]? = some step ∧ step.kind ≠ .sink ∧
    (step.kind = .fanout → r.atLast = false)
  chain : r'.chain = r.chain
  scopes : r'.scopes = r.scopes
  context : r'.context = r.context
  timeout : r'.timeout = r.timeout
  next : r'.next = r.next + 1
  state : r'.state = if r.chain.steps.length ≤ r.next + 1 then .broken else .running
  origins : r'.origins = r.origins ∪ entrants (report network w r)
  calls : r'.calls = [] ∨ r'.calls = r.calls ∧ r.nextSinks = []
  passed : .passed r.next ∈ report network w r

theorem Passes.of_passOn {network : Network} {step : Step} {after : Run} {entry : StepTrace}
    (running : r.state = .running) (here : r.chain.steps[r.next]? = some step)
    (notSink : step.kind ≠ .sink) (onTheWay : step.kind = .fanout → r.atLast = false)
    (chain : after.chain = r.chain) (next : after.next = r.next) (scopes : after.scopes = r.scopes)
    (context : after.context = r.context) (timeout : after.timeout = r.timeout)
    (state : after.state = r.state)
    (origins : after.origins = r.origins ∪ entrants (report network w r))
    (calls : after.calls = [] ∨ after.calls = r.calls ∧ r.nextSinks = [])
    (passed : .passed r.next ∈ report network w r) :
    Passes network w r (after.passOn entry) where
  step := ⟨step, here, notSink, onTheWay⟩
  chain := chain
  scopes := (passOn_scopes after entry).trans scopes
  context := context
  timeout := timeout
  next := congrArg (· + 1) next
  state := by rw [passOn_state after entry (state.trans running), chain, next]
  origins := origins
  calls := calls
  passed := passed

theorem nextSinks_eq_nil {step : Step} (here : r.chain.steps[r.next]? = some step)
    (other : step.kind ≠ .fanout) : r.nextSinks = [] := by
  unfold nextSinks
  rw [here]
  split
  · rename_i same _
    rw [Option.some.inj same] at other
    exact absurd rfl other
  · rfl

/-- A deed is a step done, one more input of a merge, or the end of the run. -/
theorem Deed.cases_of_running {network : Network} {w' : World} {r' : Run}
    (running : r.state = .running) (deed : Deed network w r w' r') :
    Passes network w r r' ∨
      (∃ id value, Collects network w r id value w' r') ∨
      (∃ step value outcomes, Judges network w r step value outcomes w' r') ∨
      Ends network w r r' := by
  cases deed with
  | took here gave events =>
      refine .inl (.of_passOn running here nofun nofun rfl rfl rfl rfl rfl rfl ?_
        (.inr ⟨rfl, nextSinks_eq_nil here nofun⟩) ?_)
      · rw [events]
        exact congrArg (r.origins ∪ ·) (SortedSet.union_empty _).symm
      · simp [events]
  | gathered collects => exact .inr (.inl ⟨_, _, collects⟩)
  | relayed here found taken some_ enough applied events =>
      refine .inl (.of_passOn running here nofun nofun rfl rfl rfl rfl rfl rfl ?_
        (.inr ⟨rfl, nextSinks_eq_nil here nofun⟩) ?_)
      · rw [events]
        exact (SortedSet.union_empty _).symm
      · simp [events]
  | stored here top place events =>
      refine .inl (.of_passOn running here nofun nofun rfl rfl rfl rfl rfl rfl ?_
        (.inr ⟨rfl, nextSinks_eq_nil here nofun⟩) ?_)
      · rw [events]
        exact (SortedSet.union_empty _).symm
      · simp [events]
  | loaded here read events =>
      refine .inl (.of_passOn running here nofun nofun rfl rfl rfl rfl rfl rfl ?_
        (.inr ⟨rfl, nextSinks_eq_nil here nofun⟩) ?_)
      · rw [events]
        exact congrArg (r.origins ∪ ·) (SortedSet.union_empty _).symm
      · simp [events]
  | merged here asked read applied events =>
      refine .inl (.of_passOn running here nofun nofun rfl rfl rfl rfl rfl rfl ?_
        (.inr ⟨rfl, nextSinks_eq_nil here nofun⟩) ?_)
      · rw [events, entrants_append]
        exact congrArg (r.origins ∪ ·) (SortedSet.union_empty _).symm
      · simp [events]
  | handedOn here onTheWay top handed heard store events =>
      refine .inl (.of_passOn running here nofun (fun _ => onTheWay) rfl rfl rfl rfl rfl rfl ?_
        (.inl rfl) ?_)
      · rw [events]
        exact (SortedSet.union_empty _).symm
      · simp [events]
  | judged judges => exact .inr (.inr (.inl ⟨_, _, _, judges⟩))
  | ended ends => exact .inr (.inr (.inr ends))

theorem Deed.here {network : Network} {w' : World} {r' : Run} (running : r.state = .running)
    (deed : Deed network w r w' r') : ∃ step, r.chain.steps[r.next]? = some step := by
  rcases deed.cases_of_running running with passes | ⟨_, _, collects⟩ | ⟨_, _, _, judges⟩ | ends
  · obtain ⟨step, here, _⟩ := passes.step
    exact ⟨step, here⟩
  · obtain ⟨_, _, _, _, here, _⟩ := collects.asked
    exact ⟨_, here⟩
  · exact ⟨_, judges.here⟩
  · exact ends.here

/-- Only a step that was done leaves another one next. -/
theorem Passes.next_ne {network : Network} {r' : Run} (passes : Passes network w r r') :
    r'.next ≠ r.next := by
  rw [passes.next]
  exact Nat.succ_ne_self r.next

theorem Collects.next {network : Network} {id : String} {value : Value} {w' : World} {r' : Run}
    (collects : Collects network w r id value w' r') : r'.next = r.next := by
  rw [collects.same]
  rfl

theorem Judges.next {network : Network} {step : Step} {value : Value}
    {outcomes : List (Except Fault SinkResult)} {w' : World} {r' : Run}
    (judges : Judges network w r step value outcomes w' r') : r'.next = r.next := by
  rw [judges.same]

/-- Nothing enters a run at its last sinks. -/
theorem Judges.origins {network : Network} {step : Step} {value : Value}
    {outcomes : List (Except Fault SinkResult)} {w' : World} {r' : Run}
    (judges : Judges network w r step value outcomes w' r') :
    entrants (report network w r) = ∅ ∧ r'.origins = r.origins := by
  constructor
  · rw [judges.events]
    split <;> rfl
  · rw [judges.same]

theorem Judges.isTerminal {network : Network} {step : Step} {value : Value}
    {outcomes : List (Except Fault SinkResult)} {w' : World} {r' : Run}
    (judges : Judges network w r step value outcomes w' r') : r'.state.isTerminal = true := by
  rw [judges.state]
  split <;> rfl

theorem Ends.isTerminal {network : Network} {r' : Run} (ends : Ends network w r r') :
    r'.state.isTerminal = true := by
  rcases ends.state with state | state
  · rw [state]
    rfl
  · rw [state]
    rfl

theorem not_running_of_isTerminal {state : RunState} (terminal : state.isTerminal = true) :
    state ≠ .running := by
  rintro rfl
  cases terminal

theorem Judges.not_running {network : Network} {step : Step} {value : Value}
    {outcomes : List (Except Fault SinkResult)} {w' : World} {r' : Run}
    (judges : Judges network w r step value outcomes w' r') : r'.state ≠ .running :=
  not_running_of_isTerminal judges.isTerminal

theorem Ends.not_running {network : Network} {r' : Run} (ends : Ends network w r r') :
    r'.state ≠ .running :=
  not_running_of_isTerminal ends.isTerminal

/-- A run goes on after a step that was done, or while a merge gathers its inputs. -/
theorem Deed.passes_or_collects {network : Network} {w' : World} {r' : Run}
    (running : r.state = .running) (going : r'.state = .running) (deed : Deed network w r w' r') :
    Passes network w r r' ∨ ∃ id value, Collects network w r id value w' r' := by
  rcases deed.cases_of_running running with passes | collects | ⟨_, _, _, judges⟩ | ends
  · exact .inl passes
  · exact .inr collects
  · exact absurd going judges.not_running
  · exact absurd going ends.not_running

/-- Whatever a turn does, its run stays a run of its chain in its partitions, and the labels that
arrive are counted. -/
theorem Deed.frame {network : Network} {w' : World} {r' : Run} (running : r.state = .running)
    (deed : Deed network w r w' r') :
    r'.chain = r.chain ∧ r'.scopes = r.scopes ∧ r'.state ≠ .pending ∧
      r'.origins = r.origins ∪ entrants (report network w r) := by
  have notPending : ∀ {state : RunState}, state.isTerminal = true → state ≠ .pending := by
    intro state terminal pending
    rw [pending] at terminal
    exact nomatch terminal
  rcases deed.cases_of_running running with passes | ⟨_, _, collects⟩ | ⟨_, _, _, judges⟩ | ends
  · refine ⟨passes.chain, passes.scopes, ?_, passes.origins⟩
    rw [passes.state]
    split
    · exact nofun
    · exact nofun
  · obtain rfl := collects.same
    refine ⟨rfl, rfl, ?_, ?_⟩
    · intro pending
      exact nomatch running.symm.trans pending
    · rw [collects.events]
      exact congrArg (_ ∪ ·) (SortedSet.union_empty _).symm
  · obtain ⟨none, origins⟩ := judges.origins
    refine ⟨?_, judges.scopes, notPending judges.isTerminal, ?_⟩
    · rw [judges.same]
    · rw [origins, none, SortedSet.union_empty]
  · exact ⟨ends.chain, ends.scopes, notPending ends.isTerminal, ends.origins⟩

end TaintFlow.Run
