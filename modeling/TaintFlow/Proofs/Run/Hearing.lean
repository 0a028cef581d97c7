import TaintFlow.Proofs.Data.Assoc
import TaintFlow.Proofs.Run.Trace

/-!
# What is written down of sinks

Sinks that are there take what they are handed or reject it, and what they say is
written down in the order in which they are named.  At the last step this is the
end of the run: `hands_of_last` says what its result and its last entry show.
-/

namespace TaintFlow.Run

variable {network : Network} {w w' : World} {r r' : Run} {step : Step} {value : Value}
  {outcomes : List (Except Fault SinkResult)}

/-! ## Answers of sinks -/

/-- What is written down of the answer of a sink. -/
def said : Except Fault SinkResult → SinkResult
  | .ok result => result
  | .error fault => rejection fault

/-- Nothing went wrong with sinks but that they rejected the value. -/
def AtMostRejected (outcomes : List (Except Fault SinkResult)) : Prop :=
  ∀ fault, .error fault ∈ outcomes → fault.kind = .sinkRejected

/-- A sink that is there takes the value or rejects it, and is named in what is written down. -/
theorem said_of_callSink {at_ : World.Location} {id : String} {given : Option Timeout}
    {outcome : Except Fault SinkResult} (there : network.sinks.has id = true)
    (called : (w.callSink network at_ id value given).1 = some outcome) :
    (said outcome).sink = id ∧ ∀ fault, outcome = .error fault → fault.kind = .sinkRejected := by
  obtain ⟨s, found⟩ := Assoc.find?_of_has there
  unfold World.callSink Sinks.get at called
  rw [found] at called
  dsimp only at called
  split at called
  · cases called
  · obtain rfl := Option.some.inj called
    refine ⟨rfl, fun fault same => ?_⟩
    obtain rfl := Except.error.inj same
    rfl
  · obtain rfl := Option.some.inj called
    refine ⟨rfl, fun fault same => ?_⟩
    obtain rfl := Except.error.inj same
    rfl
  · obtain rfl := Option.some.inj called
    exact ⟨rfl, fun _ same => by cases same⟩

/-- Sinks that are all there are named in order in what is written down. -/
theorem said_of_answers {timeout : Option Timeout} {sinks : List String}
    (there : ∀ id ∈ sinks, network.sinks.has id = true)
    (answers : List.Forall₂ (Answer network timeout value) sinks (outcomes.map some)) :
    (outcomes.map said).map SinkResult.sink = sinks ∧ AtMostRejected outcomes := by
  rw [List.forall₂_map_right_iff] at answers
  induction answers with
  | nil => exact ⟨rfl, fun _ inside => absurd inside List.not_mem_nil⟩
  | @cons id outcome sinks outcomes answer rest ih =>
      obtain ⟨w, at_, called⟩ := answer
      obtain ⟨named, rejects⟩ := said_of_callSink (there id List.mem_cons_self) called
      obtain ⟨others, atMost⟩ := ih fun id inside => there id (List.mem_cons_of_mem _ inside)
      refine ⟨by rw [List.map_cons, List.map_cons, named, others], fun fault inside => ?_⟩
      rcases List.mem_cons.mp inside with same | inRest
      · exact rejects fault same.symm
      · exact atMost fault inRest

/-- The sinks of a step are named in order in what is written down of them. -/
theorem said_of_handed (poised : Poised network r) (here : r.chain.steps[r.next]? = some step)
    (top : r.top? = some value) (there : ∀ id ∈ step.sinks, network.sinks.has id = true)
    (handed : Handed network w r value.forward step outcomes) :
    (outcomes.map said).map SinkResult.sink = step.sinks ∧ AtMostRejected outcomes :=
  said_of_answers there (poised.answers_of_handed here top handed)

/-- What is reported of sinks is what they say to the active value. -/
theorem handed_of_mem_deliveries {i : Nat} {given : Value} (top : r.top? = some value)
    (inside : .delivered i given outcomes ∈ deliveries network w r step) :
    Handed network w r value.forward step outcomes := by
  unfold deliveries at inside
  rw [top] at inside
  split at inside
  · rename_i active same
    obtain rfl := Option.some.inj same
    split at inside
    · rename_i called
      obtain ⟨_, _, rfl⟩ := Event.delivered.inj (List.mem_singleton.mp inside)
      exact ⟨_, rfl, called⟩
    · exact absurd inside List.not_mem_nil
  · rename_i active same
    obtain rfl := Option.some.inj same
    split at inside
    · rename_i all
      obtain ⟨_, _, rfl⟩ := Event.delivered.inj (List.mem_singleton.mp inside)
      exact mapM_id_eq_some all
    · exact absurd inside List.not_mem_nil
  · exact absurd inside List.not_mem_nil

/-- What several sinks said is gathered in order. -/
theorem gatherSinks_of_atMostRejected (atMost : AtMostRejected outcomes) :
    ∃ rejected, gatherSinks outcomes = .ok (outcomes.map said, rejected) := by
  induction outcomes with
  | nil => exact ⟨none, rfl⟩
  | cons outcome rest ih =>
      obtain ⟨rejected, tail⟩ := ih fun fault inside => atMost fault (List.mem_cons_of_mem _ inside)
      cases outcome with
      | ok result =>
          refine ⟨rejected, ?_⟩
          rw [gatherSinks_ok_cons, tail]
          rfl
      | error fault =>
          refine ⟨some fault, ?_⟩
          rw [gatherSinks_rejected_cons (atMost fault List.mem_cons_self), tail]
          rfl

theorem map_said_of_gatherSinks {results : List SinkResult} {rejected : Option Fault}
    (atMost : AtMostRejected outcomes) (gathered : gatherSinks outcomes = .ok (results, rejected)) :
    results = outcomes.map said := by
  obtain ⟨_, same⟩ := gatherSinks_of_atMostRejected atMost
  exact (Prod.mk.inj (Except.ok.inj (gathered.symm.trans same))).1

theorem atMostRejected_of_accepted (accepted : Accepted outcomes) : AtMostRejected outcomes :=
  fun _ inside => nomatch accepted _ inside

/-! ## The last step -/

/-- The sinks of the last step have been handed the active value, which ends the run.  The last
entry shows what they said, and the value if all of them took it; a run that is completed has been
matched with its category, and one that is not shows the labels that are missing. -/
structure Hands (network : Network) (r : Run) (step : Step) (value : Value)
    (outcomes : List (Except Fault SinkResult)) (r' : Run) : Prop where
  shown : ∃ shown, Records r step r' shown ∧ shown.sinkResults = outcomes.map said ∧
    (Accepted outcomes → shown.labels = value.labels ∧ shown.hops = value.hops + 1 ∧
      shown.outcome = .preserved)
  terminal : r'.state.isTerminal = true
  category : r'.state = .completed →
    r'.result.categoryMatch = some (matchesCategory network r.chain.expected step.sinks)
  missing : Accepted outcomes → r'.result.error.map ErrorRecord.missing =
    if r.isWhole value.forward then none else some (r.origins \ value.labels).texts

/-- The verdict of the last step changes the state and the error of the run, and the error of its
entry. -/
theorem conclude_eq (w : World) (r : Run) (shown : StepTrace) (delivered : Value)
    (clean : shown.error = none) :
    ∃ w₁ error, conclude w r shown delivered = (w₁, .passed (r.finish
        (if r.isWhole delivered then .completed else .broken) error) { shown with error }) ∧
      error.map ErrorRecord.missing =
        if r.isWhole delivered then none else some (r.origins \ delivered.labels).texts := by
  unfold conclude
  cases whole : r.isWhole delivered with
  | true =>
      have condition : (delivered.isTainted && (r.origins \ delivered.labels).isEmpty) = true :=
        whole
      refine ⟨w, none, ?_, rfl⟩
      simp only [condition, if_true, ← clean]
  | false =>
      have condition : ¬ (delivered.isTainted && (r.origins \ delivered.labels).isEmpty) = true :=
        Bool.eq_false_iff.mp whole
      exact ⟨_, some _, if_neg condition, rfl⟩

/-- A turn that is concluded shows the verdict. -/
theorem Hands.of_conclude {w₁ : World} {r₁ : Run} {shown : StepTrace}
    (running : r.state = .running) (here : r.chain.steps[r.next]? = some step)
    (turn : runStep network w r step = conclude w₁ r₁ shown value.forward)
    (turned : advance network w r = some (w', r'))
    (next : r₁.next = r.next) (origins : r₁.origins = r.origins)
    (category : r₁.result.categoryMatch =
      some (matchesCategory network r.chain.expected step.sinks))
    (clean : shown.error = none) (heard : shown.sinkResults = outcomes.map said)
    (labels : shown.labels = value.labels) (hops : shown.hops = value.hops + 1)
    (outcome : shown.outcome = .preserved) : Hands network r step value outcomes r' := by
  obtain ⟨w₂, error, concluded, missing⟩ := conclude_eq w₁ r₁ shown value.forward clean
  have whole : r₁.isWhole value.forward = r.isWhole value.forward := by
    unfold isWhole
    rw [origins]
  have writes := runStep_writes network w r step
  rw [advance_eq running here] at turned
  rw [turn, concluded] at turned writes
  have records := Written.records writes running turned
  have ended :
      (if r₁.isWhole value.forward then RunState.completed else .broken).isTerminal = true := by
    split <;> rfl
  rw [afterTurn_ended] at turned
  · obtain ⟨-, rfl⟩ := Prod.mk.inj (Option.some.inj turned)
    refine ⟨⟨_, records, heard, fun _ => ⟨labels, hops, outcome⟩⟩, ended, fun _ => category,
      fun _ => ?_⟩
    rw [whole, origins] at missing
    exact missing
  · exact ended
  · exact next

/-- A single sink ends the run. -/
theorem hands_of_sink {id : String} {outcome : Except Fault SinkResult}
    (running : r.state = .running) (here : r.chain.steps[r.next]? = some (.sink id))
    (top : r.top? = some value)
    (said_ : (w.callSink network r.location id value.forward r.timeout).1 = some outcome)
    (atMost : AtMostRejected [outcome]) (turned : advance network w r = some (w', r')) :
    Hands network r (.sink id) value [outcome] r' := by
  have turn : runStep network w r (.sink id) = runSink network w r (.sink id) id := rfl
  unfold runSink at turn
  rw [top] at turn
  dsimp only at turn
  cases call : w.callSink network r.location id value.forward r.timeout with
  | mk outcome? w₁ =>
      rw [call] at said_ turn
      obtain rfl : outcome? = some outcome := said_
      cases outcome with
      | ok result =>
          obtain ⟨_, raw, same⟩ := World.callSink_eq_ok call
          refine .of_conclude running here turn turned rfl rfl rfl rfl rfl ?_ ?_ rfl
          · rw [same]
            rfl
          · rw [same]
            rfl
      | error fault =>
          have kind := atMost fault List.mem_cons_self
          rw [advance_eq running here, turn] at turned
          obtain ⟨-, rfl⟩ := Prod.mk.inj (Option.some.inj turned)
          have notAccepted : ¬ Accepted [(.error fault : Except Fault SinkResult)] :=
            fun accepted => nomatch accepted _ List.mem_cons_self
          refine ⟨⟨_, fail_records (.refl r) (w₁.count (.steps .sink)) (.sink id) fault, ?_,
            fun accepted => absurd accepted notAccepted⟩, (stateAfter_eq fault).1,
            fun completed => ?_,
            fun accepted => absurd accepted notAccepted⟩
          · unfold failureEntry
            rw [if_pos kind]
            rfl
          · exact absurd completed (stateAfter_eq fault).2

/-- Several sinks at the end of the chain end the run. -/
theorem hands_of_fanout {sinks : List String}
    (running : r.state = .running) (here : r.chain.steps[r.next]? = some (.fanout sinks))
    (last : r.atLast = true) (top : r.top? = some value)
    (handed : Handed network w r value.forward (.fanout sinks) outcomes)
    (atMost : AtMostRejected outcomes) (turned : advance network w r = some (w', r')) :
    Hands network r (.fanout sinks) value outcomes r' := by
  have whole : (sinkOutcomes network w r value.forward sinks).mapM id = some outcomes := by
    rw [show sinkOutcomes network w r value.forward sinks = outcomes.map some from handed,
      List.mapM_map]
    exact (List.mapM_pure).trans (congrArg some (List.map_id outcomes))
  obtain ⟨rejected, heard⟩ := gatherSinks_of_atMostRejected atMost
  obtain ⟨w₁, ran⟩ := runFanout_of_gathered top whole heard (.fanout sinks)
  have turn : runStep network w r (.fanout sinks) = _ := ran
  rw [heardAll_last last] at turn
  cases rejected with
  | none =>
      exact .of_conclude running here (turn.trans (if_pos last)) turned rfl rfl rfl rfl rfl rfl rfl
        rfl
  | some fault =>
      unfold decided at turn
      dsimp only at turn
      have writes := runStep_writes network w r (.fanout sinks)
      rw [advance_eq running here] at turned
      rw [turn] at turned writes
      have records := Written.records writes running turned
      have notAccepted : ¬ Accepted outcomes := by
        intro accepted
        obtain ⟨results, fine⟩ := gatherSinks_of_accepted accepted
        exact nomatch heard.symm.trans fine
      rw [afterTurn_ended] at turned
      · obtain ⟨-, rfl⟩ := Prod.mk.inj (Option.some.inj turned)
        exact ⟨⟨_, records, rfl, fun accepted => absurd accepted notAccepted⟩, rfl, nofun,
          fun accepted => absurd accepted notAccepted⟩
      · rfl
      · rfl

/-- The sinks of the last step have said something to the active value. -/
theorem hands_of_last (running : r.state = .running)
    (here : r.chain.steps[r.next]? = some step) (last : r.atLast = true) (top : r.top? = some value)
    (handed : Handed network w r value.forward step outcomes) (atMost : AtMostRejected outcomes)
    (turned : advance network w r = some (w', r')) : Hands network r step value outcomes r' := by
  rcases handed.sink_or_fanout with ⟨id, rfl⟩ | ⟨sinks, rfl⟩
  · obtain ⟨outcome, rfl, called⟩ := handed
    exact hands_of_sink running here top called atMost turned
  · exact hands_of_fanout running here last top handed atMost turned

end TaintFlow.Run
