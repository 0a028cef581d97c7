import TaintFlow.Proofs.Run.Hearing

/-!
# What is counted of invocations

Some counters tell of invocations: how often a source was asked, how often a sink
took a value or rejected it, and how often a run was closed in a state.  The
lemmas here say, for each thing that is done to the world, which invocations are
counted by it; `Counts` is what they have in common.
-/

namespace TaintFlow

/-- An invocation that is counted: a source has been asked, a sink has said something, or a run has
been closed. -/
inductive Invocation where
  | asked (source : String)
  | told (sink : String) (accepted : Bool)
  | closed (category : SinkCategory) (state : RunState)
  deriving DecidableEq

/-- What a sink has said, as it is counted. -/
def SinkResult.invocation (result : SinkResult) : Invocation := .told result.sink result.accepted

/-- The counters that tell of an invocation: a source may have answered, failed or run out of time,
and a sink rejects a value by failing or by running out of time. -/
def Invocation.counters : Invocation → List Metric
  | .asked source =>
    [.sourceCalls source .fine, .sourceCalls source .error, .sourceCalls source .timeout]
  | .told sink true => [.sinkCalls sink .fine]
  | .told sink false => [.sinkCalls sink .error, .sinkCalls sink .timeout]
  | .closed category state => [.chainRuns category state]

/-- The invocation that a counter tells of. -/
def Metric.invocation? : Metric → Option Invocation
  | .chainRuns category state => some (.closed category state)
  | .sinkCalls sink outcome => some (.told sink (outcome = .fine))
  | .sourceCalls source _ => some (.asked source)
  | .steps _ | .taintLoss _ => none

/-- An invocation has each of its counters once, and no other. -/
theorem Invocation.count_counters (invocation : Invocation) (metric : Metric) :
    invocation.counters.count metric = metric.invocation?.toList.count invocation := by
  cases invocation with
  | asked source =>
      cases metric with
      | sourceCalls other outcome =>
          cases outcome <;>
            simp [counters, Metric.invocation?, List.count_cons, eq_comm (a := source)]
      | _ => simp [counters, Metric.invocation?]
  | told sink accepted =>
      cases metric with
      | sinkCalls other outcome =>
          cases accepted <;> cases outcome <;>
            simp [counters, Metric.invocation?, List.count_cons, eq_comm (a := sink)]
      | _ => cases accepted <;> simp [counters, Metric.invocation?]
  | closed category state =>
      cases metric with
      | chainRuns otherCategory otherState =>
          simp [counters, Metric.invocation?, List.count_cons, eq_comm (a := category),
            eq_comm (a := state)]
      | _ => simp [counters, Metric.invocation?]

/-- What has been counted of a row of things, taken together. -/
def Metrics.countAll (m : Metrics) : List Metric → Nat
  | [] => 0
  | first :: rest => m.count first + m.countAll rest

/-- Counting a thing adds to the counts of a row of things what the thing is in it. -/
theorem Metrics.countAll_bump (m : Metrics) (metric : Metric) (row : List Metric) :
    (m.bump metric).countAll row = m.countAll row + row.count metric := by
  induction row with
  | nil => rfl
  | cons first rest ih =>
      simp only [countAll, ih, count_bump, List.count_cons, beq_iff_eq]
      omega

namespace World

/-- How often an invocation has been counted. -/
def counted (w : World) (invocation : Invocation) : Nat :=
  w.metrics.countAll invocation.counters

/-- From one world to another exactly these invocations have been counted. -/
def Counts (w w' : World) (news : List Invocation) : Prop :=
  ∀ invocation, w'.counted invocation = w.counted invocation + news.count invocation

variable {w w₁ w' : World} {network : Network} {at_ : Location} {id : String}
  {news more : List Invocation}

theorem counts_of_metrics (same : w'.metrics = w.metrics) : Counts w w' [] := by
  intro invocation
  unfold counted
  rw [same]
  rfl

theorem Counts.trans (first : Counts w w₁ news) (second : Counts w₁ w' more) :
    Counts w w' (news ++ more) := by
  intro invocation
  rw [second invocation, first invocation, List.count_append, Nat.add_assoc]

/-- What is done afterwards without counting does not matter. -/
theorem Counts.of_metrics (counts : Counts w w₁ news) (same : w'.metrics = w₁.metrics) :
    Counts w w' news := by
  have both := counts.trans (counts_of_metrics same)
  rwa [List.append_nil] at both

theorem Counts.of_perm (counts : Counts w w' news) (perm : news.Perm more) : Counts w w' more := by
  intro invocation
  rw [counts invocation, perm.count_eq]

/-! ## What is done to the world -/

/-- A counter that goes up tells of its invocation, if there is one. -/
theorem counts_count (w : World) (metric : Metric) :
    Counts w (w.count metric) metric.invocation?.toList := by
  intro invocation
  rw [← invocation.count_counters]
  exact Metrics.countAll_bump w.metrics metric invocation.counters

/-- A source that is registered is counted when it has come back, whatever it has come back with. -/
theorem counts_callSource (w : World) (there : network.sources.has id = true) (at_ : Location)
    (context : Payload) (given : Option Timeout) :
    Counts w (w.callSource network at_ id context given).2
      ((w.callSource network at_ id context given).1.toList.map fun _ => .asked id) := by
  obtain ⟨s, found⟩ := Assoc.find?_of_has there
  unfold callSource Sources.get
  rw [found]
  dsimp only
  split
  · exact counts_of_metrics rfl
  · exact (counts_count _ (.sourceCalls id .timeout)).of_metrics rfl
  · exact (counts_count _ (.sourceCalls id .error)).of_metrics rfl
  · exact counts_count _ (.sourceCalls id .fine)

/-- A sink that is registered is counted when it has come back, by what is written down of it. -/
theorem counts_callSink (w : World) (there : network.sinks.has id = true) (at_ : Location)
    (value : Value) (given : Option Timeout) :
    Counts w (w.callSink network at_ id value given).2
      ((w.callSink network at_ id value given).1.toList.map fun outcome =>
        (Run.said outcome).invocation) := by
  obtain ⟨s, found⟩ := Assoc.find?_of_has there
  unfold callSink Sinks.get
  rw [found]
  dsimp only
  split
  · exact counts_of_metrics rfl
  · exact (counts_count _ (.sinkCalls id .timeout)).of_metrics rfl
  · exact (counts_count _ (.sinkCalls id .error)).of_metrics rfl
  · exact counts_count _ (.sinkCalls id .fine)

theorem counts_noteFault (w : World) (at_ : Location) (fault : Fault) :
    Counts w (w.noteFault at_ fault) [] := by
  unfold noteFault
  split
  · exact counts_of_metrics rfl
  · exact (counts_count _ (.taintLoss _)).of_metrics rfl
  · exact counts_of_metrics rfl

/-- An operator is not an invocation. -/
theorem counts_applyOperator (w : World) (network : Network) (at_ : Location) (id : String)
    (inputs : List Value) (params : Params) (step : Option Int) :
    Counts w (w.applyOperator network at_ id inputs params step).2 [] := by
  unfold applyOperator
  dsimp only
  have edited (edits : List Store.Edit) : Counts w (w.editAll at_ edits) [] :=
    counts_of_metrics (w.editAll_kept at_ edits).2
  split
  · exact (edited _).trans (counts_noteFault _ at_ _)
  · exact edited _

end World

namespace Run

variable {network : Network} {w w' : World} {r r' : Run}

/-- One more of several sinks is counted by what is written down of it. -/
theorem counts_callNext (r : Run) (value : Value) {id : String}
    (there : network.sinks.has id = true) (before : List WholeCall × World) :
    ∃ call, (callNext network r value before id).1 = before.1 ++ [call] ∧
      before.2.Counts (callNext network r value before id).2
        (call.outcome.toList.map fun outcome => (said outcome).invocation) :=
  ⟨_, rfl, (World.counts_of_metrics rfl).trans
    (World.counts_callSink { before.2 with notices := [] } there r.location value r.timeout)⟩

theorem counts_foldl_callNext (r : Run) (value : Value) {sinks : List String}
    (there : ∀ id ∈ sinks, network.sinks.has id = true) (before : List WholeCall × World) :
    ∃ calls, (sinks.foldl (callNext network r value) before).1 = before.1 ++ calls ∧
      before.2.Counts (sinks.foldl (callNext network r value) before).2
        ((calls.filterMap WholeCall.outcome).map fun outcome => (said outcome).invocation) := by
  induction sinks generalizing before with
  | nil => exact ⟨[], (List.append_nil _).symm, World.counts_of_metrics rfl⟩
  | cons id rest ih =>
      obtain ⟨call, one, counts⟩ := counts_callNext r value (there id List.mem_cons_self) before
      obtain ⟨calls, others, more⟩ := ih (fun id inside => there id (List.mem_cons_of_mem _ inside))
        (callNext network r value before id)
      refine ⟨call :: calls, ?_, ?_⟩
      · rw [List.foldl_cons, others, one, List.append_assoc]
        rfl
      · refine (counts.trans more).of_perm (.of_eq ?_)
        cases outcome : call.outcome with
        | none => rw [List.filterMap_cons_none outcome]; rfl
        | some said => rw [List.filterMap_cons_some outcome]; rfl

/-- Sinks that are called at once are counted by what is written down of them. -/
theorem counts_callSinks (w : World) (r : Run) (value : Value) {sinks : List String}
    (there : ∀ id ∈ sinks, network.sinks.has id = true) :
    w.Counts (callSinks network w r value sinks).2
      (((callSinks network w r value sinks).1.filterMap id).map fun outcome =>
        (said outcome).invocation) := by
  obtain ⟨calls, same, counts⟩ := counts_foldl_callNext r value there ([], w)
  have called : (callSinks network w r value sinks).1 =
      (sinks.foldl (callNext network r value) ([], w)).1.map WholeCall.outcome := rfl
  rw [called, same, List.nil_append, List.filterMap_map]
  exact counts.of_metrics rfl

/-- A run that is closed is counted once, by its state. -/
theorem counts_close (closed : close w r = .ok (w', r')) :
    w.Counts w' [.closed r.chain.expected r.state] := by
  unfold close at closed
  obtain ⟨p, _, same⟩ := Except.bind_eq_ok.mp closed
  obtain ⟨rfl, -⟩ := Prod.mk.inj (Except.ok.inj same)
  have edited := World.counts_of_metrics (w.edit_kept ⟨some r.chain.id, none⟩ (.release p)).2
  exact edited.trans ((World.counts_count _ (.chainRuns r.chain.expected r.state)).of_metrics rfl)

end Run

end TaintFlow
