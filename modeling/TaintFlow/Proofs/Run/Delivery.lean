import TaintFlow.Proofs.Chain.Depth
import TaintFlow.Proofs.Run.Course

/-!
# Delivery of taint

A run is completed if and only if its taint is delivered: all steps but the last
were done, the sinks of the last step accepted the value that they were handed,
and that value has a label and every label that entered the run.

The calls of several sinks may be spread over a course.  `Poised` is what holds
of them in between: each call that has ended is an answer of its sink to the
active value, one hop on.
-/

namespace TaintFlow.Run

variable {network : Network} {rely : World → World → Prop} {origin : Run} {log : List Event}
  {w : World} {r : Run}

/-! ## What sinks answer -/

/-- Every sink accepted, in the order in which they are named. -/
def AcceptedBy (sinks : List String) (outcomes : List (Except Fault SinkResult)) : Prop :=
  List.Forall₂ (fun id outcome => ∃ result, outcome = .ok result ∧ result.sink = id ∧
    result.accepted = true) sinks outcomes

/-- The calls that have ended are answers of their sinks. -/
def Poised (network : Network) (r : Run) : Prop :=
  r.calls = [] ∨ ∃ value, r.top? = some value ∧
    List.Forall₂ (fun id call => ∀ outcome, SinkCall.outcome? call = some outcome →
      Answer network r.timeout value.forward id (some outcome)) r.nextSinks r.calls

/-- What holds along two lists holds if one item of the second list is replaced. -/
theorem forall₂_set {α β : Type} {R : α → β → Prop} {as : List α} {bs : List β} {i : Nat} {b : β}
    (all : List.Forall₂ R as bs) (new : ∀ a, as[i]? = some a → R a b) :
    List.Forall₂ R as (bs.set i b) := by
  induction all generalizing i with
  | nil => exact .nil
  | cons first rest ih =>
      cases i with
      | zero => exact .cons (new _ rfl) rest
      | succ i => exact .cons first (ih new)

theorem Poised.calls_eq_nil (poised : Poised network r) (none : r.nextSinks = []) :
    r.calls = [] := by
  rcases poised with nil | ⟨_, _, all⟩
  · exact nil
  · rw [none] at all
    exact List.forall₂_nil_left_iff.mp all

/-- What several sinks say, as far as they have said something, are their answers in order. -/
theorem Poised.outcomes {value : Value} {sinks : List String} (poised : Poised network r)
    (here : r.chain.steps[r.next]? = some (.fanout sinks)) (top : r.top? = some value) :
    List.Forall₂ (fun id outcome => ∀ said, outcome = some said →
      Answer network r.timeout value.forward id (some said)) sinks
        (sinkOutcomes network w r value.forward sinks) := by
  have named : r.nextSinks = sinks := by
    unfold nextSinks
    rw [here, top]
  unfold sinkOutcomes
  split
  · refine (callSinks_answers network w r value.forward sinks).1.imp ?_
    intro id outcome answer said same
    rw [← same]
    exact answer
  · rename_i some_
    rcases poised with nil | ⟨active, top', all⟩
    · rw [nil] at some_
      exact absurd rfl some_
    · obtain rfl := Option.some.inj (top.symm.trans top')
      rw [named] at all
      exact List.forall₂_map_right_iff.mpr all

/-- The next sinks have answered in order when their calls are all taken together. -/
theorem Poised.answers {value : Value} {sinks : List String}
    {outcomes : List (Except Fault SinkResult)} (poised : Poised network r)
    (here : r.chain.steps[r.next]? = some (.fanout sinks)) (top : r.top? = some value)
    (handed : Handed network w r value.forward (.fanout sinks) outcomes) :
    List.Forall₂ (Answer network r.timeout value.forward) sinks (outcomes.map some) := by
  have given : sinkOutcomes network w r value.forward sinks = outcomes.map some := handed
  have all := poised.outcomes here top (w := w)
  rw [given, List.forall₂_map_right_iff] at all
  rw [List.forall₂_map_right_iff]
  exact all.imp fun _ _ answer => answer _ rfl

/-- The sinks of a step have answered in order. -/
theorem Poised.answers_of_handed {step : Step} {value : Value}
    {outcomes : List (Except Fault SinkResult)} (poised : Poised network r)
    (here : r.chain.steps[r.next]? = some step) (top : r.top? = some value)
    (handed : Handed network w r value.forward step outcomes) :
    List.Forall₂ (Answer network r.timeout value.forward) step.sinks (outcomes.map some) := by
  rcases handed.sink_or_fanout with ⟨id, rfl⟩ | ⟨sinks, rfl⟩
  · obtain ⟨outcome, rfl, called⟩ := handed
    exact .cons ⟨w, r.location, called⟩ .nil
  · exact poised.answers here top handed

theorem acceptedBy_of_answers {timeout : Option Timeout} {value : Value} {sinks : List String}
    {outcomes : List (Except Fault SinkResult)}
    (answers : List.Forall₂ (Answer network timeout value) sinks (outcomes.map some))
    (accepted : Accepted outcomes) : AcceptedBy sinks outcomes := by
  rw [List.forall₂_map_right_iff] at answers
  refine List.forall₂_iff_zip.mpr ⟨answers.length_eq, fun {id outcome} paired => ?_⟩
  obtain ⟨w, at_, said⟩ := (List.forall₂_iff_zip.mp answers).2 paired
  cases outcome with
  | error fault => exact nomatch accepted _ (List.of_mem_zip paired).2
  | ok result =>
      obtain ⟨_, _, same⟩ := World.callSink_eq_ok (Prod.ext said rfl)
      exact ⟨result, rfl, by rw [same], by rw [same]⟩

theorem AcceptedBy.accepted {sinks : List String} {outcomes : List (Except Fault SinkResult)}
    (all : AcceptedBy sinks outcomes) : Accepted outcomes := by
  unfold AcceptedBy at all
  induction all with
  | nil => exact fun _ inside => absurd inside List.not_mem_nil
  | cons first rest ih =>
      intro outcome inside
      rcases List.mem_cons.mp inside with rfl | inRest
      · obtain ⟨_, rfl, _⟩ := first
        rfl
      · exact ih outcome inRest

namespace Course

/-- The calls of sinks that have ended are answers to the active value, all along a course. -/
theorem poised (fresh : origin.calls = []) (way : Course network rely origin log w r)
    (running : r.state = .running) : Poised network r := by
  induction way with
  | started begun =>
      obtain ⟨_, rfl⟩ := start_eq_ok begun
      exact .inl fresh
  | turned before turn ih =>
      obtain ⟨before, deed⟩ := deed_of_advance turn
      have ready := ih before
      rcases deed.passes_or_collects before running with passes | ⟨_, _, collects⟩
      · rcases passes.calls with nil | ⟨same, none⟩
        · exact .inl nil
        · exact .inl (same.trans (ready.calls_eq_nil none))
      · obtain rfl := collects.same
        exact ready
  | readAhead before running' here asked read ih =>
      rw [mergeInputs_run read]
      exact ih running'
  | @summoned log w r before running' ih =>
      cases top : r.top? with
      | none =>
          refine .inl ?_
          show r.nextSinks.map _ = []
          unfold nextSinks
          rw [top]
          cases r.chain.steps[r.next]? with
          | none => rfl
          | some step => cases step <;> rfl
      | some value =>
          refine .inr ⟨value, top, ?_⟩
          rw [List.forall₂_map_right_iff]
          refine List.forall₂_same.mpr ?_
          intro _ _ _ due
          exact nomatch due
  | called position before running' ih =>
      rcases ih running' with nil | ⟨value, top, all⟩
      · refine .inl ?_
        show List.set _ position _ = []
        rw [nil]
        rfl
      · refine .inr ⟨value, top, forall₂_set all ?_⟩
        intro _ _ _ underway
        exact nomatch underway
  | @answered log w w' r position id value outcome before running' named top answer ih =>
      rcases ih running' with nil | ⟨value', top', all⟩
      · refine .inl ?_
        show List.set _ position _ = []
        rw [nil]
        rfl
      · obtain rfl := Option.some.inj (top.symm.trans top')
        refine .inr ⟨value, top, forall₂_set all ?_⟩
        intro id' named' outcome' same
        obtain rfl := Option.some.inj (named.symm.trans named')
        obtain rfl := Option.some.inj same
        exact ⟨w, _, congrArg Prod.fst answer⟩
  | waited before others ih => exact ih running

end Course

/-! ## Completion -/

/-- The taint of a run is delivered: every step before the last was done, and the sinks of the last
step accepted a value that has a label and every label that entered the run. -/
def TaintDelivered (c : Chain) (log : List Event) : Prop :=
  (∀ i < c.lastIndex, .passed i ∈ log) ∧
    ∃ value outcomes, .delivered c.lastIndex value outcomes ∈ log ∧
      AcceptedBy c.last.sinks outcomes ∧ (∃ label, label ∈ value.labels) ∧
      ∀ label ∈ entrants log, label ∈ value.labels

theorem isWhole_iff {delivered : Value} :
    r.isWhole delivered = true ↔
      (∃ label, label ∈ delivered.labels) ∧ ∀ label ∈ r.origins, label ∈ delivered.labels := by
  unfold isWhole
  rw [Bool.and_eq_true, Value.isTainted_iff, SortedSet.isEmpty_diff_iff, SortedSet.subset_def]

/-- In an accepted chain only its last step can be judged. -/
theorem Judges.atLast {defining : Network} {step : Step} {value : Value}
    {outcomes : List (Except Fault SinkResult)} {w' : World} {r' : Run}
    (judges : Judges network w r step value outcomes w' r')
    (valid : r.chain.validate defining = .ok ()) :
    r.next = r.chain.lastIndex ∧ step = r.chain.last := by
  have last : r.next = r.chain.lastIndex := by
    rcases judges.concludes with sink | ⟨_, atLast⟩
    · exact Chain.sink_is_last valid judges.here sink
    · exact of_decide_eq_true atLast
  refine ⟨last, ?_⟩
  have here := judges.here
  rw [last, Chain.steps_lastIndex] at here
  exact (Option.some.inj here).symm

/-- In an accepted chain a step that leaves its run going is not the last. -/
theorem Passes.state_of_valid {defining : Network} {r' : Run} (passes : Passes network w r r')
    (valid : r.chain.validate defining = .ok ()) : r'.state = .running := by
  rw [passes.state]
  split
  · rename_i end_
    obtain ⟨step, here, notSink, onTheWay⟩ := passes.step
    have last : r.next = r.chain.lastIndex := by
      have := Chain.le_lastIndex here
      have := r.chain.length_eq
      omega
    rw [last, Chain.steps_lastIndex] at here
    obtain rfl := Option.some.inj here
    rcases Chain.last_concludes valid with ⟨_, sink⟩ | ⟨_, fanout⟩
    · exact absurd (congrArg Step.kind sink) notSink
    · have notLast := onTheWay (congrArg Step.kind fanout)
      unfold atLast at notLast
      rw [last] at notLast
      exact absurd rfl (of_decide_eq_false notLast)
  · rfl

/-- The last step of an accepted chain leaves none to go on with. -/
theorem Passes.next_ne_lastIndex {defining : Network} {r' : Run} (passes : Passes network w r r')
    (valid : r.chain.validate defining = .ok ()) : r.next ≠ r.chain.lastIndex := by
  intro last
  have state := passes.state
  have end_ : r.chain.steps.length ≤ r.next + 1 :=
    Nat.le_of_eq (last ▸ r.chain.length_eq)
  rw [passes.state_of_valid valid, if_pos end_] at state
  cases state

theorem Judges.acceptedBy {step : Step} {value : Value}
    {outcomes : List (Except Fault SinkResult)} {w' : World} {r' : Run}
    (judges : Judges network w r step value outcomes w' r') (poised : Poised network r) :
    AcceptedBy step.sinks outcomes :=
  acceptedBy_of_answers (poised.answers_of_handed judges.here judges.top judges.handed)
    judges.accepted

/-- What sinks are handed at the last step decides whether taint is delivered. -/
theorem taintDelivered_iff_of_judges {defining : Network} {step : Step} {value : Value}
    {outcomes : List (Except Fault SinkResult)} {w' : World} {r' : Run}
    (way : Course network rely origin log w r) (running : r.state = .running)
    (judges : Judges network w r step value outcomes w' r')
    (valid : r.chain.validate defining = .ok ()) (next : origin.next = 0)
    (origins : origin.origins = ∅) (calls : origin.calls = []) :
    TaintDelivered r.chain (log ++ report network w r) ↔ r.isWhole value.forward = true := by
  obtain ⟨last, rfl⟩ := judges.atLast valid
  obtain ⟨passed, delivered⟩ := way.marked next running
  have entered : entrants (log ++ report network w r) = r.origins := by
    rw [entrants_append, judges.origins.1, SortedSet.union_empty, way.origins_eq, origins,
      SortedSet.empty_union]
  rw [isWhole_iff]
  unfold TaintDelivered
  rw [entered]
  constructor
  · rintro ⟨_, given, outcomes', there, _, whole⟩
    rcases List.mem_append.mp there with inLog | inReport
    · have := delivered _ _ _ inLog
      omega
    · obtain ⟨_, _, active, _, top, rfl, _⟩ := delivered_of_mem_report inReport
      obtain rfl := Option.some.inj (judges.top.symm.trans top)
      exact whole
  · intro whole
    refine ⟨fun i less => List.mem_append_left _ ((passed i).mpr (last ▸ less)), value.forward,
      outcomes, List.mem_append_right _ ?_, ?_, whole⟩
    · rw [judges.events, last]
      exact List.mem_cons_self
    · exact judges.acceptedBy (way.poised calls running)

/-- A run that ends before its last sinks accept has not delivered its taint. -/
theorem not_taintDelivered_of_ends {r' : Run} (way : Course network rely origin log w r)
    (running : r.state = .running) (ends : Ends network w r r') (next : origin.next = 0) :
    ¬ TaintDelivered r.chain (log ++ report network w r) := by
  rintro ⟨_, value, outcomes, there, accepted, _⟩
  rcases List.mem_append.mp there with inLog | inReport
  · obtain ⟨step, here⟩ := ends.here
    have := (way.marked next running).delivered _ _ _ inLog
    have := Chain.le_lastIndex here
    omega
  · exact ends.notAccepted _ _ _ inReport accepted.accepted

/-- A run of an accepted chain that has ended is completed exactly if its taint is delivered. -/
theorem Course.completed_iff {defining : Network}
    (valid : origin.chain.validate defining = .ok ()) (next : origin.next = 0)
    (origins : origin.origins = ∅) (calls : origin.calls = [])
    (way : Course network rely origin log w r) (terminal : r.state.isTerminal = true) :
    r.state = .completed ↔ TaintDelivered origin.chain log := by
  refine way.keeps (fun log r => r.state.isTerminal = true →
    (r.state = .completed ↔ TaintDelivered origin.chain log)) ?_ ?_ ?_ ?_ terminal
  · exact fun _ terminal => nomatch terminal
  · intro log w r w' r' before running _ deed terminal
    have same := before.chain_eq
    rw [← same] at valid ⊢
    rcases deed.cases_of_running running with passes | ⟨_, _, collects⟩ | ⟨_, _, _, judges⟩ | ends
    · rw [passes.state_of_valid valid] at terminal
      exact nomatch terminal
    · obtain rfl := collects.same
      exact nomatch running ▸ terminal
    · rw [taintDelivered_iff_of_judges before running judges valid next origins calls,
        judges.state]
      split
      · rename_i whole
        exact ⟨fun _ => whole, fun _ => rfl⟩
      · rename_i notWhole
        exact ⟨nofun, fun whole => absurd whole notWhole⟩
    · refine ⟨fun completed => ?_, fun delivered =>
        absurd delivered (not_taintDelivered_of_ends before running ends next)⟩
      rcases ends.state with state | state
      · exact nomatch state.symm.trans completed
      · exact nomatch state.symm.trans completed
  · intro _ _ _ _ _ _ _ _ _ _ running _ _ _ _ terminal
    exact nomatch running ▸ terminal
  · intro _ _ _ _ _ running _ terminal
    exact nomatch running ▸ terminal

/-- **Completion is exactly delivery of taint.**  However a run of an accepted chain is interleaved
with others: if it returns, it is completed if and only if every step before the last was done,
every sink of the last step accepted, and the labels that they were handed are not none and are all
that entered the run; and the origins of its result are the labels that entered it. -/
theorem completed_iff_taintDelivered {defining network : Network} {rely : World → World → Prop}
    {chain : Chain} {scopes : RunScopes} {runId : String} {context : Payload}
    {timeout : Option Timeout} {log : List Event} {result : RunResult}
    (valid : chain.validate defining = .ok ())
    (returned : Returned network rely (fresh chain scopes runId context timeout) log result) :
    (result.state = .completed ↔ TaintDelivered chain log) ∧ result.origins = entrants log := by
  obtain ⟨w, r, w', r', way, terminal, closed, rfl⟩ := returned
  obtain ⟨_, rfl⟩ := close_eq_ok closed
  constructor
  · exact way.completed_iff valid rfl rfl rfl terminal
  · exact way.origins_eq.trans (SortedSet.empty_union _)

/-- A source and a sink. -/
def shortcut : Network where
  sources := [("form",
    { id := "form", category := .httpBody, capability := contextField "body" .null })]
  sinks := [("shell",
    { id := "shell", categories := .singleton .command
      capability := recording "shell" none })]
  engine := .plain false

/-- The chain from the source to the sink. -/
def direct : Chain where
  id := "direct"
  expected := .command
  steps := [.source "form", .sink "shell"]
  steps_ne := nofun

/-- The chain from a source to a sink delivers its taint. -/
theorem taintDelivered_direct : ∃ log, TaintDelivered direct log ∧ entrants log ≠ ∅ := by
  obtain ⟨w, r, ran, completed, tainted⟩ : ∃ w r,
      Run.run shortcut {} (fresh direct ⟨"1", none⟩ "1") = .returned w r ∧
        r.result.state = .completed ∧ r.result.origins ≠ ∅ :=
    ⟨_, _, rfl, rfl, by decide⟩
  obtain ⟨log, returned⟩ : ∃ log, Returned shortcut (fun _ _ => True) _ log r.result :=
    returned_of_run ran
  have valid : direct.validate shortcut = .ok () := rfl
  obtain ⟨delivered, origins⟩ := completed_iff_taintDelivered valid returned
  exact ⟨log, delivered.mp completed, origins ▸ tainted⟩

end TaintFlow.Run
