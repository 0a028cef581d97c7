import TaintFlow.Proofs.Run.Depth

/-!
# Progress of a run

A step that validation allows is done if everything that it relies on does its
part.  What a step relies on are components that are there, operators that are
asked for as many inputs as they take, stored values, and ids for the
partitions that it writes to.
-/

namespace TaintFlow.Run

variable {network : Network} {w : World} {r : Run}

/-- The ids of a run are enough for a chain: the run has an id of its own, and one of its session if
the chain touches session values. -/
def Provided (c : Chain) (scopes : RunScopes) : Prop :=
  scopes.execution ≠ "" ∧
    (c.usesSession = true → ∃ id, scopes.session = some id ∧ id ≠ "")

/-- Every key that a step names has a partition. -/
theorem Provided.partition {c : Chain} {scopes : RunScopes} (provided : Provided c scopes)
    {step : Step} (inside : step ∈ c.steps) {ref : StoreRef} (named : ref ∈ step.storeRefs) :
    ∃ p, ref.scope.partition (scopes.idFor ref.scope) = .ok p := by
  obtain ⟨own, session⟩ := provided
  cases scope : ref.scope with
  | process => exact ⟨_, rfl⟩
  | request =>
      refine ⟨⟨.request, scopes.execution⟩, ?_⟩
      show Scope.request.partition (some scopes.execution) = _
      unfold Scope.partition
      exact if_neg own
  | session =>
      have uses : c.usesSession = true := by
        unfold Chain.usesSession
        rw [List.any_eq_true]
        refine ⟨step, inside, List.any_eq_true.mpr ⟨ref, named, ?_⟩⟩
        rw [scope]
        rfl
      obtain ⟨id, same, some_⟩ := session uses
      refine ⟨⟨.session, id⟩, ?_⟩
      show Scope.session.partition scopes.session = _
      rw [same]
      unfold Scope.partition
      exact if_neg some_

/-- A registered source that does its part gives a value. -/
theorem callSource_of_willing {at_ : World.Location} {id : String} {context : Payload}
    {timeout : Option Timeout} (registered : network.sources.has id = true)
    (willing : isDeclined (w.callSource network at_ id context timeout).1 = false) :
    ∃ value w₁, w.callSource network at_ id context timeout = (some (.ok value), w₁) := by
  obtain ⟨s, found⟩ := Assoc.find?_of_has registered
  have got : network.sources.get id = .ok s := by
    unfold Sources.get
    rw [found]
  unfold World.callSource at willing ⊢
  rw [got] at willing ⊢
  dsimp only at willing ⊢
  split at willing
  · exact nomatch willing
  · exact nomatch willing
  · exact nomatch willing
  · exact ⟨_, _, rfl⟩

theorem callSink_of_willing {at_ : World.Location} {id : String} {value : Value}
    {timeout : Option Timeout} (registered : network.sinks.has id = true)
    (willing : isDeclined (w.callSink network at_ id value timeout).1 = false) :
    ∃ result w₁, w.callSink network at_ id value timeout = (some (.ok result), w₁) := by
  obtain ⟨s, found⟩ := Assoc.find?_of_has registered
  have got : network.sinks.get id = .ok s := by
    unfold Sinks.get
    rw [found]
  unfold World.callSink at willing ⊢
  rw [got] at willing ⊢
  dsimp only at willing ⊢
  split at willing
  · exact nomatch willing
  · exact nomatch willing
  · exact nomatch willing
  · exact ⟨_, _, rfl⟩

/-- A registered operator that does its part makes a value of as many inputs as it takes. -/
theorem applyOperator_of_willing {id : String} {inputs : List Value} {params : Params}
    {operator : Operator} (found : network.engine.operators.find? id = some operator)
    (accepts : operator.accepts inputs.length = true) (nonempty : inputs ≠ [])
    (willing : operatorDeclines network w r id inputs params = false) :
    ∃ output w₁, w.applyOperator network r.location id inputs params (some r.next) =
      (some (.ok output), w₁) := by
  unfold operatorDeclines at willing
  rw [found] at willing
  dsimp only at willing
  rw [accepts, List.isEmpty_eq_false_iff.mpr nonempty] at willing
  cases call : w.applyOperator network r.location id inputs params (some r.next) with
  | mk outcome w₁ =>
      rw [call] at willing
      match outcome with
      | none => exact nomatch willing
      | some (.error fault) => exact nomatch willing
      | some (.ok output) => exact ⟨output, w₁, rfl⟩

/-- Registered sinks that all do their part have all accepted. -/
theorem sinkOutcomes_of_willing {value : Value} {sinks : List String} (poised : Poised network r)
    (here : r.chain.steps[r.next]? = some (.fanout sinks)) (top : r.top? = some value)
    (registered : ∀ id ∈ sinks, network.sinks.has id = true)
    (willing : (sinkOutcomes network w r value.forward sinks).any isDeclined = false) :
    ∃ outcomes, (sinkOutcomes network w r value.forward sinks).mapM id = some outcomes ∧
      Accepted outcomes := by
  have all := poised.outcomes here top (w := w)
  generalize sinkOutcomes network w r value.forward sinks = given at all willing
  clear here
  induction all with
  | nil => exact ⟨[], rfl, fun _ inside => absurd inside List.not_mem_nil⟩
  | @cons id outcome sinks given answer rest ih =>
      rw [List.any_cons, Bool.or_eq_false_iff] at willing
      obtain ⟨others, whole, accepted⟩ := ih
        (fun other inRest => registered other (List.mem_cons_of_mem _ inRest)) willing.2
      cases outcome with
      | none => exact nomatch willing.1
      | some said =>
          obtain ⟨w, at_, same⟩ := answer said rfl
          have first := willing.1
          rw [← same] at first
          obtain ⟨result, w₁, call⟩ :=
            callSink_of_willing (registered id List.mem_cons_self) first
          rw [call] at same
          obtain rfl := Option.some.inj same
          refine ⟨.ok result :: others, ?_, ?_⟩
          · rw [List.mapM_cons, whole]
            rfl
          · intro one inside
            rcases List.mem_cons.mp inside with rfl | inRest
            · rfl
            · exact accepted one inRest

/-! ## Steps that go well -/

/-- The turn was done: its run has ended in the way that its sinks decided, or goes on. -/
def Turn.GoesWell : Turn → Prop
  | .partly _ | .passed .. => True
  | .stalled | .failed .. | .crashed .. => False

/-- What a turn relies on: the step is allowed, what it has gathered and heard is in order, and its
run has the ids that it needs. -/
structure Ready (network : Network) (r : Run) (step : Step) : Prop where
  here : r.chain.steps[r.next]? = some step
  allows : ∃ isLast after, Chain.Allows network isLast r.stack.length after step
  provided : Provided r.chain r.scopes
  gathers : Gathers network r
  poised : Poised network r

theorem taken_of_needed {operator : Operator} {held : Nat} (enough : operator.needed ≤ held) :
    0 < operator.arity.getD held ∧ operator.arity.getD held ≤ held ∧
      operator.accepts (operator.arity.getD held) = true := by
  have positive := operator.needed_pos
  unfold Operator.needed at enough positive
  unfold Operator.accepts
  cases arity : operator.arity with
  | none =>
      rw [arity] at enough
      exact ⟨enough, Nat.le_refl held, decide_eq_true enough⟩
  | some n =>
      rw [arity] at enough positive
      exact ⟨positive, enough, decide_eq_true rfl⟩

theorem runSource_goesWell {id : String} (ready : Ready network r (.source id))
    (willing : refuses network w r (.source id) = false) :
    (runSource network w r (.source id) id).2.GoesWell := by
  obtain ⟨_, _, registered, _⟩ := ready.allows
  obtain ⟨value, w₁, call⟩ := callSource_of_willing registered willing
  unfold runSource
  rw [call]
  exact trivial

theorem runRelay_goesWell {id : String} {params : Params} (ready : Ready network r (.relay id params))
    (willing : refuses network w r (.relay id params) = false) :
    (runRelay network w r (.relay id params) id params).2.GoesWell := by
  obtain ⟨_, _, operator, found, enough, _⟩ := ready.allows
  obtain ⟨some_, most, accepts⟩ := taken_of_needed enough
  have count : (r.stack.drop (r.stack.length - operator.arity.getD r.stack.length)).length =
      operator.arity.getD r.stack.length := by
    rw [List.length_drop]
    omega
  have nonempty : r.stack.drop (r.stack.length - operator.arity.getD r.stack.length) ≠ [] :=
    List.ne_nil_of_length_pos (by rw [count]; exact some_)
  unfold refuses at willing
  dsimp only at willing
  rw [found] at willing
  dsimp only at willing
  rw [decide_eq_true most, Bool.true_and] at willing
  obtain ⟨output, w₁, call⟩ := applyOperator_of_willing found (count.symm ▸ accepts) nonempty willing
  unfold runRelay
  rw [Engine.get_eq_ok.mpr found]
  dsimp only
  rw [if_neg (by omega), call]
  exact trivial

theorem runStore_goesWell {target : StoreRef} (ready : Ready network r (.store target)) :
    (runStore w r (.store target) target).2.GoesWell := by
  obtain ⟨_, _, some_, _⟩ := ready.allows
  obtain ⟨value, top⟩ := exists_top some_
  obtain ⟨p, place⟩ := ready.provided.partition (List.mem_of_getElem? ready.here)
    (List.mem_singleton_self target)
  unfold runStore
  rw [top]
  dsimp only
  rw [place]
  exact trivial

theorem runLoad_goesWell {origin : StoreRef}
    (willing : refuses network w r (.load origin) = false) :
    (runLoad network w r (.load origin) origin).2.GoesWell := by
  unfold refuses at willing
  dsimp only at willing
  unfold runLoad
  cases read : load network w.store r origin with
  | error failure =>
      rw [read] at willing
      exact nomatch willing
  | ok pair => exact trivial

theorem runMerge_goesWell {sources : List String} {loads : List StoreRef} {id : String}
    {params : Params} (ready : Ready network r (.merge sources loads id params))
    (willing : refuses network w r (.merge sources loads id params) = false) :
    (runMerge network w r (.merge sources loads id params) sources loads id params).2.GoesWell := by
  obtain ⟨_, _, registered, ⟨operator, found, accepts⟩, _⟩ := ready.allows
  unfold refuses at willing
  unfold runMerge
  dsimp only at willing
  cases asked : sources[r.gathered.length]? with
  | some source =>
      rw [asked] at willing
      obtain ⟨value, w₁, call⟩ :=
        callSource_of_willing (registered source (List.mem_of_getElem? asked)) willing
      dsimp only
      rw [call]
      exact trivial
  | none =>
      rw [asked] at willing
      dsimp only at willing ⊢
      unfold runMergeEnd
      cases read : mergeInputs network w.store r loads with
      | error pair =>
          rw [read] at willing
          exact nomatch willing
      | ok pair =>
          obtain ⟨inputs, r₁⟩ := pair
          obtain ⟨count, _⟩ := ready.gathers.length_eq ready.here asked read
          rw [read] at willing
          have nonempty : inputs ≠ [] := by
            intro none
            rw [← count, none] at accepts
            unfold Operator.accepts at accepts
            cases arity : operator.arity with
            | none => exact nomatch arity ▸ accepts
            | some n =>
                rw [arity] at accepts
                have zero : 0 = n := of_decide_eq_true accepts
                exact absurd (operator.arity_pos n arity) (zero ▸ Nat.lt_irrefl 0)
          obtain ⟨output, w₁, call⟩ :=
            applyOperator_of_willing found (count.symm ▸ accepts) nonempty willing
          have location : r₁.location = r.location := by
            rw [mergeInputs_run read]
            rfl
          have next : r₁.next = r.next := by
            rw [mergeInputs_run read]
            rfl
          have same : w.applyOperator network r₁.location id inputs params (some r₁.next) =
              (some (.ok output), w₁) := by
            rw [location, next]
            exact call
          dsimp only
          rw [same]
          exact trivial

/-- The last sinks always come to a verdict. -/
theorem conclude_goesWell (w : World) (r : Run) (entry : StepTrace) (delivered : Value) :
    (conclude w r entry delivered).2.GoesWell := by
  unfold conclude
  dsimp only
  split
  · exact trivial
  · exact trivial

theorem runSink_goesWell {id : String} (ready : Ready network r (.sink id))
    (willing : refuses network w r (.sink id) = false) :
    (runSink network w r (.sink id) id).2.GoesWell := by
  obtain ⟨_, _, some_, _, registered, _⟩ := ready.allows
  obtain ⟨value, top⟩ := exists_top some_
  unfold refuses at willing
  dsimp only at willing
  rw [top] at willing
  obtain ⟨result, w₁, call⟩ := callSink_of_willing registered willing
  unfold runSink
  rw [top]
  dsimp only
  rw [call]
  exact conclude_goesWell _ _ _ _

theorem runFanout_goesWell {sinks : List String} (ready : Ready network r (.fanout sinks))
    (willing : refuses network w r (.fanout sinks) = false) :
    (runFanout network w r (.fanout sinks) sinks).2.GoesWell := by
  obtain ⟨_, _, some_, registered, _⟩ := ready.allows
  obtain ⟨value, top⟩ := exists_top some_
  unfold refuses at willing
  dsimp only at willing
  rw [top] at willing
  obtain ⟨outcomes, whole, accepted⟩ :=
    sinkOutcomes_of_willing ready.poised ready.here top registered willing
  obtain ⟨results, heard⟩ := gatherSinks_of_accepted accepted
  obtain ⟨w₁, ran⟩ := runFanout_of_gathered top whole heard (.fanout sinks)
  rw [ran]
  unfold decided
  dsimp only
  split
  · exact conclude_goesWell _ _ _ _
  · exact trivial

/-- A step that is allowed goes well if what it relies on does its part. -/
theorem runStep_goesWell {step : Step} (ready : Ready network r step)
    (willing : refuses network w r step = false) : (runStep network w r step).2.GoesWell := by
  cases step with
  | source id => exact runSource_goesWell ready willing
  | relay id params => exact runRelay_goesWell ready willing
  | store target => exact runStore_goesWell ready
  | load origin => exact runLoad_goesWell willing
  | fanout sinks => exact runFanout_goesWell ready willing
  | merge sources loads id params => exact runMerge_goesWell ready willing
  | sink id => exact runSink_goesWell ready willing

theorem advance_of_goesWell {step : Step} (running : r.state = .running)
    (here : r.chain.steps[r.next]? = some step)
    (well : (runStep network w r step).2.GoesWell) :
    ∃ w' r', advance network w r = some (w', r') := by
  rw [advance_eq running here]
  cases turn : (runStep network w r step).2 with
  | partly after => exact ⟨_, _, rfl⟩
  | passed after entry => exact ⟨_, _, rfl⟩
  | stalled => exact (turn ▸ well).elim
  | failed after fault => exact (turn ▸ well).elim
  | crashed after mishap => exact (turn ▸ well).elim

/-- A step that goes well is not given up. -/
theorem not_stopped_of_goesWell {step : Step} {i : Nat} {failure : Failure}
    (here : r.chain.steps[r.next]? = some step)
    (well : (runStep network w r step).2.GoesWell) :
    .stopped i failure ∉ report network w r := by
  intro inside
  obtain ⟨step', here', judged⟩ := mem_verdict_of_mem_report inside rfl nofun nofun
  obtain rfl := Option.some.inj (here.symm.trans here')
  cases turn : (runStep network w r step).2 with
  | partly after =>
      rw [turn] at judged
      exact absurd judged List.not_mem_nil
  | passed after entry =>
      rw [turn] at judged
      unfold Turn.verdict at judged
      dsimp only at judged
      split at judged
      · exact nomatch List.mem_singleton.mp judged
      · exact absurd judged List.not_mem_nil
  | stalled => exact (turn ▸ well).elim
  | failed after fault => exact (turn ▸ well).elim
  | crashed after mishap => exact (turn ▸ well).elim

/-- A report tells of a refusal if something did not do its part. -/
theorem refused_of_mem_report {step : Step} {i : Nat} (here : r.chain.steps[r.next]? = some step)
    (inside : .refused i ∈ report network w r) :
    i = r.next ∧ refuses network w r step = true := by
  obtain ⟨step', here', arrived | delivered | ⟨same, declined⟩ | judged⟩ := mem_report.mp inside
  · rcases gave_or_read_of_mem_arrivals arrived with ⟨_, _, other⟩ | ⟨_, _, other⟩
    · exact nomatch other
    · exact nomatch other
  · obtain ⟨_, _, _, other⟩ := delivered_of_mem_deliveries delivered
    exact nomatch other
  · obtain rfl := Option.some.inj (here.symm.trans here')
    exact ⟨Event.refused.inj same, declined⟩
  · rcases passed_or_stopped_of_mem_verdict judged with ⟨other, _⟩ | ⟨_, other⟩
    · exact nomatch other
    · exact nomatch other

/-- A step that is allowed ends its run only if something did not do its part. -/
theorem Ends.refuses {step : Step} {r' : Run} (ends : Ends network w r r')
    (ready : Ready network r step) : refuses network w r step = true := by
  cases willing : Run.refuses network w r step with
  | true => rfl
  | false =>
      rcases ends.cause with refused | ⟨failure, stopped⟩
      · rw [← willing]
        exact (refused_of_mem_report ready.here refused).2
      · exact absurd stopped
          (not_stopped_of_goesWell ready.here (runStep_goesWell ready willing))

end TaintFlow.Run
