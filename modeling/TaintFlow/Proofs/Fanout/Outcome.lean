import TaintFlow.Proofs.Fanout.Calls
import TaintFlow.Proofs.Run.Loop
import TaintFlow.Proofs.Invocations.Concert

/-!
# What a fan-out makes of its run

A value is handed to all sinks of a fan-out, whatever the others say to it and in
whatever order they come to an end.  What they say is written down in the order of the
list, the first of them there that rejected the value is the one that is blamed, and
the run goes on only if none did.  The main statement is `fanout_serves_all`.
-/

namespace TaintFlow.Run

variable {network : Network} {w : World} {r : Run} {sinks : List String} {value : Value}
  {outcomes : List (Except Fault SinkResult)}

/-! ## The first rejection -/

/-- Sinks that did not all accept have a first one, in order, that did not. -/
theorem exists_first (some_ : ¬ Accepted outcomes) :
    ∃ before fault rest, outcomes = before ++ .error fault :: rest ∧ Accepted before := by
  induction outcomes with
  | nil => exact absurd (List.forall_mem_nil _) some_
  | cons outcome rest ih =>
      cases outcome with
      | error fault => exact ⟨[], fault, rest, rfl, List.forall_mem_nil _⟩
      | ok result =>
          have later : ¬ Accepted rest := fun all =>
            some_ (List.forall_mem_cons.mpr ⟨rfl, all⟩)
          obtain ⟨before, fault, after, rfl, accepted⟩ := ih later
          exact ⟨.ok result :: before, fault, after, rfl, List.forall_mem_cons.mpr ⟨rfl, accepted⟩⟩

theorem not_accepted_of_first {before rest : List (Except Fault SinkResult)} {fault : Fault}
    (split : outcomes = before ++ .error fault :: rest) : ¬ Accepted outcomes := by
  intro all
  have inside : .error fault ∈ outcomes := split ▸ List.mem_append_right _ List.mem_cons_self
  cases all _ inside

/-- The first rejection is the one that is gathered. -/
theorem gatherSinks_of_first {before rest : List (Except Fault SinkResult)} {fault : Fault}
    (atMost : AtMostRejected (before ++ .error fault :: rest)) (accepted : Accepted before) :
    gatherSinks (before ++ .error fault :: rest) =
      .ok ((before ++ .error fault :: rest).map said, some fault) := by
  induction before with
  | nil =>
      obtain ⟨rejected, tail⟩ := gatherSinks_of_atMostRejected fun other inside =>
        atMost other (List.mem_cons_of_mem _ inside)
      rw [List.nil_append, gatherSinks_rejected_cons (atMost fault List.mem_cons_self), tail]
      rfl
  | cons outcome before ih =>
      obtain ⟨here, later⟩ := List.forall_mem_cons.mp accepted
      cases outcome with
      | error other => cases here
      | ok result =>
          have tail := ih (fun other inside => atMost other (List.mem_cons_of_mem _ inside)) later
          rw [List.cons_append, gatherSinks_ok_cons, tail]
          rfl

/-! ## The turn -/

/-- What a fan-out makes of its run, by what its sinks said in the order of the list. -/
structure FansOut (r : Run) (sinks : List String) (value : Value)
    (outcomes : List (Except Fault SinkResult)) (r' : Run) : Prop where
  results : r'.result.sinkResults = r.result.sinkResults ++ outcomes.map said
  shown : ∃ shown, Records r (.fanout sinks) r' shown ∧ shown.sinkResults = outcomes.map said ∧
    shown.labels = value.labels ∧ shown.hops = value.hops + 1
  failed_iff : r'.state = .failed ↔ ¬ Accepted outcomes
  blamed : ∀ before fault rest, outcomes = before ++ .error fault :: rest → Accepted before →
    r'.result.error = some { fault with step := some r.next }.record
  goesOn : Accepted outcomes → r.atLast = false →
    r'.state = .running ∧ r'.stack = r.stack ∧ r'.next = r.next + 1

/-- What is written down of a fan-out before anybody is blamed. -/
def fannedOut (r : Run) (step : Step) (value : Value) (outcomes : List (Except Fault SinkResult)) :
    StepTrace :=
  { index := r.next, step, labels := value.labels, hops := value.hops + 1, outcome := .preserved
    sinkResults := outcomes.map said }

/-- A fan-out blames the sink that is gathered as the first that rejected the value; if there is none,
it goes on or comes to the verdict of the last step. -/
theorem runFanout_blames (top : r.top? = some value)
    (handed : sinkOutcomes network w r value.forward sinks = outcomes.map some)
    {rejected : Option Fault}
    (gathered : gatherSinks outcomes = .ok (outcomes.map said, rejected)) (step : Step) :
    ∃ w₁ r₁, (runFanout network w r step sinks = match rejected with
        | some fault =>
          let error := { fault with step := some r.next }.record
          (w₁, .passed (r₁.finish .failed (some error))
            { fannedOut r step value outcomes with error := some error })
        | none =>
          if r.atLast then conclude w₁ r₁ (fannedOut r step value outcomes) value.forward
          else (w₁, .passed r₁ (fannedOut r step value outcomes))) ∧
      r₁.state = r.state ∧ r₁.stack = r.stack ∧ r₁.next = r.next ∧ r₁.chain = r.chain := by
  have whole : (sinkOutcomes network w r value.forward sinks).mapM id = some outcomes := by
    rw [handed, List.mapM_map]
    exact (List.mapM_pure).trans (congrArg some (List.map_id outcomes))
  obtain ⟨w₁, ran⟩ := runFanout_of_gathered top whole gathered step
  obtain ⟨_, _, same⟩ := exists_heardAll network r sinks (outcomes.map said)
  rw [ran, same]
  cases rejected with
  | some fault => exact ⟨_, _, rfl, rfl, rfl, rfl, rfl⟩
  | none => exact ⟨_, _, rfl, rfl, rfl, rfl, rfl⟩

theorem gatherSinks_of_all (accepted : Accepted outcomes) :
    gatherSinks outcomes = .ok (outcomes.map said, none) := by
  obtain ⟨results, gathered⟩ := gatherSinks_of_accepted accepted
  obtain rfl := map_said_of_gatherSinks (atMostRejected_of_accepted accepted) gathered
  exact gathered

/-- A turn in which a step has come to its end. -/
theorem advance_of_passed {step : Step} {w₁ : World} {after : Run} {shown : StepTrace}
    (running : r.state = .running) (here : r.chain.steps[r.next]? = some step)
    (turn : runStep network w r step = (w₁, .passed after shown)) :
    ∃ w' r', advance network w r = some (w', r') ∧ Records r step r' shown ∧
      (after.state = .running ∧ r' = after.passOn shown ∨
        after.state.isTerminal = true ∧ r' = after.record shown) := by
  have writes := runStep_writes network w r step
  rw [turn] at writes
  have taken : advance network w r = afterTurn step r w₁ (.passed after shown) := by
    rw [advance_eq running here, turn]
  rcases writes.verdict with ⟨same, -⟩ | ⟨ended, -⟩
  · have goesOn : afterTurn step r w₁ (.passed after shown) = _ :=
      afterTurn_passed (same.trans running) writes.next
    exact ⟨_, _, taken.trans goesOn, writes.records running goesOn, .inl ⟨same.trans running, rfl⟩⟩
  · have closes : afterTurn step r w₁ (.passed after shown) = _ := afterTurn_ended ended writes.next
    exact ⟨_, _, taken.trans closes, writes.records running closes, .inr ⟨ended, rfl⟩⟩

/-- The turn of a fan-out in which a sink has rejected the value. -/
theorem fansOut_of_rejected (running : r.state = .running)
    (here : r.chain.steps[r.next]? = some (.fanout sinks)) (top : r.top? = some value)
    (handed : sinkOutcomes network w r value.forward sinks = outcomes.map some)
    (atMost : AtMostRejected outcomes) (some_ : ¬ Accepted outcomes) :
    ∃ w' r', advance network w r = some (w', r') ∧ FansOut r sinks value outcomes r' := by
  obtain ⟨before, fault, rest, split, first⟩ := exists_first some_
  have gathered := gatherSinks_of_first (split ▸ atMost) first
  rw [← split] at gathered
  obtain ⟨w₁, r₁, turn, -⟩ := runFanout_blames top handed gathered (.fanout sinks)
  obtain ⟨w', r', turned, records, ⟨other, -⟩ | ⟨-, same⟩⟩ := advance_of_passed running here turn
  · cases other
  refine ⟨w', r', turned, records.heard, ⟨_, records, rfl, rfl, rfl⟩,
    iff_of_true (by rw [same]; rfl) some_, fun before' fault' rest' split' first' => ?_,
    fun all => absurd all some_⟩
  have again := gatherSinks_of_first (split' ▸ atMost) first'
  rw [← split', gathered] at again
  obtain rfl := Option.some.inj (Prod.mk.inj (Except.ok.inj again)).2
  rw [same]
  rfl

/-- The turn of a fan-out whose sinks have all accepted the value. -/
theorem fansOut_of_accepted (running : r.state = .running)
    (here : r.chain.steps[r.next]? = some (.fanout sinks)) (top : r.top? = some value)
    (handed : sinkOutcomes network w r value.forward sinks = outcomes.map some)
    (all : Accepted outcomes) :
    ∃ w' r', advance network w r = some (w', r') ∧ FansOut r sinks value outcomes r' := by
  obtain ⟨w₁, r₁, turn, state, stack, next, chain⟩ :=
    runFanout_blames top handed (gatherSinks_of_all all) (.fanout sinks)
  have nobody (before fault rest) (split : outcomes = before ++ .error fault :: rest)
      {blamed : Prop} : blamed := absurd all (not_accepted_of_first split)
  dsimp only at turn
  cases last : r.atLast with
  | true =>
      obtain ⟨w₂, error, concluded, -⟩ := conclude_eq w₁ r₁
        (fannedOut r (.fanout sinks) value outcomes) value.forward rfl
      rw [last, if_pos rfl, concluded] at turn
      obtain ⟨w', r', turned, records, moved⟩ := advance_of_passed running here turn
      have verdict : r'.state = if r₁.isWhole value.forward then .completed else .broken := by
        rcases moved with ⟨other, -⟩ | ⟨-, same⟩
        · have ended : (if r₁.isWhole value.forward then RunState.completed else .broken).isTerminal =
              true := by
            split <;> rfl
          exact absurd other (not_running_of_isTerminal ended)
        · rw [same]
          rfl
      refine ⟨w', r', turned, records.heard, ⟨_, records, rfl, rfl, rfl⟩,
        iff_of_false ?_ (not_not_intro all), fun before fault rest split _ =>
          nobody before fault rest split, fun _ other => nomatch last.symm.trans other⟩
      rw [verdict]
      split <;> nofun
  | false =>
      rw [last, if_neg Bool.false_ne_true] at turn
      have still := state.trans running
      obtain ⟨w', r', turned, records, moved⟩ := advance_of_passed running here turn
      rcases moved with ⟨-, same⟩ | ⟨ended, -⟩
      · have onTheWay : ¬ r₁.chain.steps.length ≤ r₁.next + 1 := by
          have before := r.chain.le_lastIndex here
          have differs : r.next ≠ r.chain.lastIndex := of_decide_eq_false last
          rw [chain, next, r.chain.length_eq]
          omega
        have goesOn : r'.state = .running := by
          rw [same, passOn_state _ _ still, if_neg onTheWay]
        refine ⟨w', r', turned, records.heard, ⟨_, records, rfl, rfl, rfl⟩,
          iff_of_false (by rw [goesOn]; nofun) (not_not_intro all), fun before fault rest split _ =>
            nobody before fault rest split, fun _ _ => ⟨goesOn, ?_, ?_⟩⟩
        · rw [same]
          exact stack
        · rw [same]
          exact congrArg (· + 1) next
      · exact absurd still (not_running_of_isTerminal ended)

/-- The turn of a fan-out whose sinks have all said something. -/
theorem fansOut_of_handed (running : r.state = .running)
    (here : r.chain.steps[r.next]? = some (.fanout sinks)) (top : r.top? = some value)
    (handed : sinkOutcomes network w r value.forward sinks = outcomes.map some)
    (atMost : AtMostRejected outcomes) :
    ∃ w' r', advance network w r = some (w', r') ∧ FansOut r sinks value outcomes r' := by
  by_cases accepted : Accepted outcomes
  · exact fansOut_of_accepted running here top handed accepted
  · exact fansOut_of_rejected running here top handed atMost accepted

/-! ## All sinks are served -/

/-- The value has been handed to each place of the list once; who is there has been called with the
payload, and what has come of it is what stands at that place. -/
structure ServesAll (network : Network) (r : Run) (sinks : List String) (value : Value)
    (log : List Service) (outcomes : List (Except Fault SinkResult)) : Prop where
  once : (log.map Service.place).Perm (List.range sinks.length)
  served : ∀ s ∈ log, ∃ id sink, sinks[s.place]? = some id ∧ network.sinks.find? id = some sink ∧
    s.before.callSink network r.location id value.forward r.timeout = (some s.outcome, s.after) ∧
    s.before.Served id sink value.forward (World.timeoutOf network r.timeout sink.timeout) s.outcome
      s.after
  placed : ∀ s ∈ log, outcomes[s.place]? = some s.outcome

variable {rely : World → World → Prop} {w₁ : World} {log : List Service}

theorem servesAll_of_handing (there : ∀ id ∈ sinks, network.sinks.has id = true)
    (handing : Handing network rely w r sinks value.forward log w₁ (outcomes.map .ended)) :
    ServesAll network r sinks value log outcomes := by
  obtain ⟨once, all⟩ := handing.complete
  refine ⟨once, fun s inside => ?_, fun s inside => (all s inside).2⟩
  obtain ⟨id, named, called⟩ := (all s inside).1
  obtain ⟨sink, found⟩ := Assoc.find?_of_has (there id (List.mem_of_getElem? named))
  exact ⟨id, sink, named, found, called, World.served_of_callSink found called⟩

/-- What stands at a place has come of the call there. -/
theorem ServesAll.exists_service (serves : ServesAll network r sinks value log outcomes)
    (length : outcomes.length = sinks.length) {outcome : Except Fault SinkResult}
    (inside : outcome ∈ outcomes) : ∃ s ∈ log, s.outcome = outcome := by
  obtain ⟨place, less, rfl⟩ := List.mem_iff_getElem.mp inside
  have called := serves.once.mem_iff.mpr (List.mem_range.mpr (length ▸ less))
  obtain ⟨s, inLog, rfl⟩ := List.mem_map.mp called
  have here := serves.placed s inLog
  rw [List.getElem?_eq_getElem less] at here
  exact ⟨s, inLog, (Option.some.inj here).symm⟩

/-- Sinks that are there do nothing worse than reject the value. -/
theorem atMostRejected_of_handing (there : ∀ id ∈ sinks, network.sinks.has id = true)
    (handing : Handing network rely w r sinks value.forward log w₁ (outcomes.map .ended)) :
    AtMostRejected outcomes := by
  have length : outcomes.length = sinks.length := (List.length_map _).symm.trans handing.length_eq
  have serves := servesAll_of_handing there handing
  intro fault inside
  obtain ⟨s, inLog, same⟩ := serves.exists_service length inside
  obtain ⟨id, sink, named, _, called, _⟩ := serves.served s inLog
  exact (said_of_callSink (there id (List.mem_of_getElem? named))
    (congrArg Prod.fst called)).2 fault same

/-- How far the calls have come does not matter to what is made of the run. -/
theorem FansOut.of_calls {calls : List SinkCall} {r' : Run}
    (fansOut : FansOut { r with calls } sinks value outcomes r') :
    FansOut r sinks value outcomes r' := by
  obtain ⟨results, ⟨shown, records, told⟩, failed_iff, blamed, goesOn⟩ := fansOut
  obtain ⟨index, step, trace, finished, identity, heard, verdict⟩ := records
  exact ⟨results, ⟨shown, ⟨index, step, trace, finished, identity, heard, verdict⟩, told⟩,
    failed_iff, blamed, goesOn⟩

/-- A value from a form. -/
def filled : Value := ⟨.text "x", .singleton ⟨"form", .httpBody, .untrusted⟩, 0⟩

end TaintFlow.Run

/-!
## Runs that share a world

In a concert the calls of a fan-out are made one by one while other runs act.  What the
run that makes them has of them at any time is a `Handing`, so that its turn finds all
sinks served.  The main statement is `Concert.serves_all`.
-/

namespace TaintFlow.Run

variable {network : Network} {w w' w₀ : World} {r r' : Run} {asked : List String}
  {sinks : List String} {value : Value}

/-- A run that hands its active value to several sinks has called none of them yet, or it has made
its calls one by one. -/
def Delivers (network : Network) (w : World) (r : Run) : Prop :=
  ∀ sinks value, r.state = .running → r.chain.steps[r.next]? = some (.fanout sinks) →
    r.top? = some value → r.calls = [] ∨ ∃ v log,
      Handing network Anything v { r with calls := [] } sinks value.forward log w r.calls

theorem nextSinks_of_here (here : r.chain.steps[r.next]? = some (.fanout sinks))
    (top : r.top? = some value) : r.nextSinks = sinks := by
  unfold nextSinks
  rw [here, top]

theorem Delivers.wait (delivers : Delivers network w r) (w' : World) : Delivers network w' r := by
  intro sinks value running here top
  rcases delivers sinks value running here top with nil | ⟨v, log, handing⟩
  · exact .inl nil
  · exact .inr ⟨v, log, handing.rested trivial⟩

/-- An act leaves the calls of its run in order. -/
theorem Act.delivers (act : Act network w r asked w' r') (accredited : Accredited network w r)
    (delivers : Delivers network w r) : Delivers network w' r' := by
  intro sinks value running' here top
  cases act with
  | begins begun =>
      obtain ⟨pending, rfl⟩ := start_eq_ok begun
      exact .inl (accredited.uncalled pending)
  | turns turned =>
      have running := (running_of_advance turned).1
      exact .inl (calls_of_advance (accredited.poised running) turned running')
  | readsAhead running at_ asked read =>
      obtain rfl := mergeInputs_run read
      cases at_.symm.trans here
  | summons running uncalled =>
      have named : r.nextSinks = sinks := nextSinks_of_here here top
      rw [named]
      exact .inr ⟨w, [], .summoned⟩
  | calls position running due =>
      rcases delivers sinks value running here top with nil | ⟨v, log, handing⟩
      · rw [nil] at due
        cases due
      · exact .inr ⟨v, log, handing.waits due⟩
  | hears running named top' called unanswered answer =>
      obtain rfl := Option.some.inj (top.symm.trans top')
      have same : r.nextSinks = sinks := nextSinks_of_here here top
      rw [same] at named
      rcases delivers sinks _ running here top with nil | ⟨v, log, handing⟩
      · rw [nil] at called
        cases called
      · exact .inr ⟨v, _, handing.answers named called unanswered answer⟩
  | misses running named top' answer => exact delivers.wait w' sinks value running here top
  | closes terminal unclosed closed =>
      obtain ⟨_, rfl⟩ := close_eq_ok closed
      exact absurd running' (not_running_of_isTerminal terminal)

theorem Concert.delivers {runs : List Run} (concert : Concert network w₀ asked w runs) :
    ∀ r ∈ runs, Delivers network w r := by
  induction concert with
  | begun => exact List.forall_mem_nil _
  | joined before valid scopes runId context timeout ih =>
      refine List.forall_mem_append.mpr ⟨ih, List.forall_mem_singleton.mpr ?_⟩
      exact fun _ _ running => nomatch running
  | @acted _ _ _ w' _ _ _ _ before here act ih =>
      intro r inside
      have inRuns := List.mem_of_getElem? here
      rcases List.mem_or_eq_of_mem_set inside with other | rfl
      · exact (ih r other).wait w'
      · exact act.delivers (before.accredited _ inRuns) (ih _ inRuns)
  | @rested _ _ w' _ before uncounted ih => exact fun r inside => (ih r inside).wait w'

/-- Calls that have all come to an end are their outcomes, in order. -/
theorem calls_of_outcomes {calls : List SinkCall} {outcomes : List (Except Fault SinkResult)}
    (all : calls.map SinkCall.outcome? = outcomes.map some) : calls = outcomes.map .ended := by
  obtain ⟨others, rfl⟩ : ∃ others : List (Except Fault SinkResult), calls = others.map .ended := by
    refine exists_outcomes fun call inside => ?_
    have told : call.outcome? ∈ outcomes.map some := all ▸ List.mem_map_of_mem inside
    obtain ⟨outcome, -, same⟩ := List.mem_map.mp told
    rw [← same]
    rfl
  rw [List.map_map] at all
  obtain rfl : others = outcomes := List.map_injective_iff.mpr (fun _ _ => Option.some.inj) all
  rfl

/-- **A fan-out in a concert serves all its sinks.**  Whatever the runs do beside it, the turn of a
fan-out finds each place of its list served once. -/
theorem Concert.serves_all {runs : List Run} (concert : Concert network w₀ asked w runs)
    (inside : r ∈ runs) (here : r.chain.steps[r.next]? = some (.fanout sinks))
    (top : r.top? = some value) (turned : advance network w r = some (w', r')) :
    ∃ log outcomes, ServesAll network r sinks value log outcomes ∧
      FansOut r sinks value outcomes r' := by
  have running := (running_of_advance turned).1
  have there := (Chain.registered_of_here (concert.accredited r inside).valid here).2.1
  obtain ⟨outcomes, handed⟩ := exists_outcomes_of_advance here top turned
  obtain ⟨rely, v, v', log, handing⟩ : ∃ rely v v' log, Handing network rely v { r with calls := [] }
      sinks value.forward log v' (outcomes.map .ended) := by
    unfold sinkOutcomes at handed
    split at handed
    · have came : (callSinks network w { r with calls := [] } value.forward sinks).1 =
        outcomes.map some := handed
      obtain ⟨log, -, handing⟩ := handing_callSinks came
      exact ⟨_, w, _, log, handing⟩
    · rename_i called
      rcases concert.delivers r inside sinks value running here top with nil | ⟨v, log, handing⟩
      · rw [nil] at called
        exact absurd rfl called
      · rw [calls_of_outcomes handed] at handing
        exact ⟨_, v, w, log, handing⟩
  have serves := servesAll_of_handing there handing
  have atMost := atMostRejected_of_handing there handing
  obtain ⟨w₁, r₁, again, fansOut⟩ := fansOut_of_handed running here top handed atMost
  obtain ⟨-, rfl⟩ := Prod.mk.inj (Option.some.inj (again.symm.trans turned))
  exact ⟨log, outcomes, ⟨serves.once, serves.served, serves.placed⟩, fansOut⟩

end TaintFlow.Run
