import TaintFlow.Proofs.Invocations.Counting
import TaintFlow.Proofs.Relay.Loss
import TaintFlow.Proofs.Run.Account

/-!
# What a turn counts and what it writes down

A turn counts the source that it asks.  What sinks say in it is counted as well,
unless they have been called one by one before, and is written down once: in the
entry of a step that was done, of one that failed for a rejection, or of several
sinks of which some rejected the value.  The main statement is `counts_of_advance`.
-/

namespace TaintFlow

/-- The operators of an engine raise none of the library's own faults. -/
def Engine.Blameless (engine : Engine) : Prop :=
  ∀ id operator, engine.operators.find? id = some operator → operator.Blameless

namespace Engine

variable {engine : Engine} {operator : Operator} {id : String} {inputs : List Value}
  {params : Params} {step : Option Int} {store : Store} {fault : Fault} {payload : Payload}

/-- What an operator hands back is no rejection of a sink. -/
theorem not_rejected_of_conclude (refused : conclude operator inputs step payload = .error fault) :
    fault.kind ≠ .sinkRejected := by
  rcases conclude_eq_error refused with rfl | ⟨_, _, _, _, _, rfl⟩
  · exact nofun
  · exact nofun

/-- An operator that raises no fault of its own does not reject a value as a sink does. -/
theorem Blameless.not_rejected (blameless : engine.Blameless)
    (failed : (engine.apply id inputs params step store).outcome = some (.error fault)) :
    fault.kind ≠ .sinkRejected := by
  cases found : engine.operators.find? id with
  | none =>
      rw [apply_of_unknown found] at failed
      rw [← Except.error.inj (Option.some.inj failed)]
      exact nofun
  | some operator =>
      rcases apply_cases found with ⟨payload, _, concluded⟩ | ⟨_, reported⟩
      · rw [concluded] at failed
        exact not_rejected_of_conclude (Option.some.inj failed)
      · obtain ⟨_, same, other⟩ := reported _ failed
        rw [Except.error.inj same, other (blameless id operator found)]
        exact nofun

end Engine

namespace Run

variable {network : Network} {w w' : World} {r r' : Run} {step : Step}

/-! ## Turns in which sinks say nothing -/

/-- What a failure tells of is no rejection of a sink. -/
def NoRejection (failure : Failure) : Prop := ∀ fault, failure = .fault fault → fault.kind ≠ .sinkRejected

theorem noRejection_of_readSlot {store : Store} {p : Partition} {key : String} {fault : Fault}
    (read : readSlot store p key = .error fault) : fault.kind ≠ .sinkRejected := by
  unfold readSlot at read
  split at read
  · cases read
  · rw [← Except.error.inj read]
    exact nofun
  · rw [← Except.error.inj read]
    exact nofun

theorem noRejection_of_ensureLabels {component : String} {expected : LabelSet} {output : Value}
    {at_ : Option Int} {fault : Fault}
    (lost : ensureLabels component expected output at_ = .error fault) :
    fault.kind ≠ .sinkRejected := by
  unfold ensureLabels at lost
  dsimp only at lost
  split at lost
  · cases lost
  · rw [← Except.error.inj lost]
    exact nofun

theorem noRejection_of_load {store : Store} {ref : StoreRef} {failure : Failure}
    (read : load network store r ref = .error failure) : NoRejection failure := by
  unfold load at read
  rcases Except.bind_eq_error.mp read with none | ⟨_, _, read⟩
  · obtain ⟨mishap, _, rfl⟩ := Except.mapError_eq_error.mp none
    rintro fault ⟨⟩
  · rcases Except.bind_eq_error.mp read with absent | ⟨value, _, checked⟩
    · obtain ⟨fault, unread, rfl⟩ := Except.mapError_eq_error.mp absent
      rintro _ ⟨⟩
      exact noRejection_of_readSlot unread
    · dsimp only at checked
      split at checked
      · split at checked
        · rcases Except.bind_eq_error.mp checked with lost | ⟨_, _, done⟩
          · obtain ⟨fault, lacks, rfl⟩ := Except.mapError_eq_error.mp lost
            rintro _ ⟨⟩
            exact noRejection_of_ensureLabels lacks
          · cases done
        · cases checked
      · cases checked

theorem noRejection_of_loadAll {store : Store} {refs : List StoreRef} {values : List Value}
    {failure : Failure} (read : loadAll network store r refs values = .error (failure, r')) :
    NoRejection failure := by
  induction refs generalizing r values with
  | nil => cases read
  | cons ref rest ih =>
      unfold loadAll at read
      split at read
      · exact ih read
      · rename_i first
        obtain ⟨rfl, _⟩ := Prod.mk.inj (Except.error.inj read)
        exact noRejection_of_load first

theorem noRejection_of_mergeInputs {store : Store} {loads : List StoreRef} {failure : Failure}
    (read : mergeInputs network store r loads = .error (failure, r')) : NoRejection failure := by
  unfold mergeInputs at read
  split at read
  · cases read
  · split at read
    · cases read
    · rename_i same
      rw [Except.error.inj read] at same
      exact noRejection_of_loadAll same

/-- No sink has said anything in a turn. -/
def Turn.Unheard : Turn → Prop
  | .passed _ shown => shown.sinkResults = []
  | .failed _ fault => fault.kind ≠ .sinkRejected
  | .stalled | .partly _ | .crashed .. => True

/-- If a turn comes to something, these invocations have been counted in it, and no sink has said
anything. -/
def Quietly (w : World) (news : List Invocation) (after : World × Turn) : Prop :=
  after.2 ≠ .stalled → w.Counts after.1 news ∧ after.2.Unheard

theorem unheard_stopped {failure : Failure} (noRejection : NoRejection failure) :
    (r.stopped failure).Unheard := by
  cases failure with
  | fault fault => exact noRejection fault rfl
  | mishap mishap => trivial
  | invalid what => trivial

theorem not_rejected_of_callSource {id : String} {at_ : World.Location} {context : Payload}
    {given : Option Timeout} {fault : Fault} (there : network.sources.has id = true)
    (failed : w.callSource network at_ id context given = (some (.error fault), w')) :
    fault.kind ≠ .sinkRejected := by
  obtain ⟨s, found⟩ := Assoc.find?_of_has there
  unfold World.callSource Sources.get at failed
  rw [found] at failed
  dsimp only at failed
  split at failed
  · cases (Prod.mk.inj failed).1
  · rw [← Except.error.inj (Option.some.inj (Prod.mk.inj failed).1)]
    exact nofun
  · rw [← Except.error.inj (Option.some.inj (Prod.mk.inj failed).1)]
    exact nofun
  · cases Option.some.inj (Prod.mk.inj failed).1

theorem runSource_quietly {id : String} (there : network.sources.has id = true) :
    Quietly w [.asked id] (runSource network w r step id) := by
  have counts := World.counts_callSource w there r.location r.context r.timeout
  unfold runSource
  cases called : w.callSource network r.location id r.context r.timeout with
  | mk outcome w₁ =>
      rw [called] at counts
      cases outcome with
      | none => exact fun comes => absurd rfl comes
      | some ended =>
          cases ended with
          | error fault => exact fun _ => ⟨counts, not_rejected_of_callSource there called⟩
          | ok value => exact fun _ => ⟨counts, rfl⟩

/-- An operator that is applied in a turn, which goes on with its output. -/
theorem quietly_of_applyOperator (blameless : network.engine.Blameless) (id : String)
    (inputs : List Value) (params : Params) (failed : Run) (passed : Value → Turn)
    (unheard : ∀ output, (passed output).Unheard) :
    Quietly w [] (match w.applyOperator network r.location id inputs params (some r.next) with
      | (none, w) => (w, .stalled)
      | (some (.error fault), w) => (w, .failed failed fault)
      | (some (.ok output), w) => (w, passed output)) := by
  have counts :=
    World.counts_applyOperator w network r.location id inputs params (some (r.next : Int))
  have said :=
    World.applyOperator_outcome w network r.location id inputs params (some (r.next : Int))
  cases applied : w.applyOperator network r.location id inputs params (some r.next) with
  | mk outcome w₁ =>
      rw [applied] at counts said
      cases outcome with
      | none => exact fun comes => absurd rfl comes
      | some ended =>
          cases ended with
          | error fault => exact fun _ => ⟨counts, blameless.not_rejected said.symm⟩
          | ok output => exact fun _ => ⟨counts, unheard output⟩

theorem runRelay_quietly (blameless : network.engine.Blameless) (id : String) (params : Params) :
    Quietly w [] (runRelay network w r step id params) := by
  unfold runRelay
  split
  · rename_i fault missing
    refine fun _ => ⟨World.counts_of_metrics rfl, ?_⟩
    unfold Engine.get at missing
    split at missing
    · cases missing
    · rw [← Except.error.inj missing]
      exact nofun
  · dsimp only
    split
    · exact fun _ => ⟨World.counts_of_metrics rfl, nofun⟩
    · exact quietly_of_applyOperator blameless id _ params r _ fun _ => rfl

theorem runStore_quietly (target : StoreRef) : Quietly w [] (runStore w r step target) := by
  unfold runStore
  split
  · exact fun _ => ⟨World.counts_of_metrics rfl, nofun⟩
  · dsimp only
    split
    · exact fun _ => ⟨World.counts_of_metrics rfl, trivial⟩
    · exact fun _ => ⟨World.counts_of_metrics (w.edit_kept _ _).2, rfl⟩

theorem runLoad_quietly (origin : StoreRef) :
    Quietly w [] (runLoad network w r step origin) := by
  unfold runLoad
  split
  · rename_i read
    exact fun _ => ⟨World.counts_of_metrics rfl, unheard_stopped (noRejection_of_load read)⟩
  · exact fun _ => ⟨World.counts_of_metrics rfl, rfl⟩

theorem runMergeEnd_quietly (blameless : network.engine.Blameless) (loads : List StoreRef)
    (id : String) (params : Params) :
    Quietly w [] (runMergeEnd network w r step loads id params) := by
  unfold runMergeEnd
  split
  · rename_i read
    exact fun _ => ⟨World.counts_of_metrics rfl, unheard_stopped (noRejection_of_mergeInputs read)⟩
  · exact quietly_of_applyOperator blameless id _ params _ _ fun _ => rfl

theorem runMerge_quietly (blameless : network.engine.Blameless) {sources : List String}
    (there : ∀ id ∈ sources, network.sources.has id = true) (loads : List StoreRef) (id : String)
    (params : Params) :
    Quietly w (sources[r.gathered.length]?.toList.map .asked)
      (runMerge network w r step sources loads id params) := by
  unfold runMerge
  cases named : sources[r.gathered.length]? with
  | none => exact runMergeEnd_quietly blameless loads id params
  | some source =>
      have there := there source (List.mem_of_getElem? named)
      have counts := World.counts_callSource w there r.location r.context r.timeout
      dsimp only
      cases called : w.callSource network r.location source r.context r.timeout with
      | mk outcome w₁ =>
          rw [called] at counts
          cases outcome with
          | none => exact fun comes => absurd rfl comes
          | some ended =>
              cases ended with
              | error fault => exact fun _ => ⟨counts, not_rejected_of_callSource there called⟩
              | ok value => exact fun _ => ⟨counts, trivial⟩

/-! ## What is written down of a turn -/

/-- What sinks that are called one by one have said before the turn is done. -/
def answered (r : Run) : List SinkResult := (r.calls.filterMap SinkCall.outcome?).map said

/-- What a turn writes down of sinks. -/
def Turn.told (step : Step) : Turn → List SinkResult
  | .passed _ shown => shown.sinkResults
  | .failed after fault => (after.failureEntry step fault).sinkResults
  | .stalled | .partly _ | .crashed .. => []

theorem answered_of_nil (nil : r.calls = []) : r.answered = [] := by
  unfold answered
  rw [nil]
  rfl

theorem Turn.Unheard.told_eq_nil {turn : Turn} (unheard : turn.Unheard) (step : Step) :
    turn.told step = [] := by
  cases turn with
  | passed after shown => exact unheard
  | failed after fault =>
      unfold told failureEntry
      dsimp only
      rw [if_neg unheard]
      rfl
  | stalled => rfl
  | partly after => rfl
  | crashed after mishap => rfl

/-- A step that failed for a rejection tells of the sink that rejected the value. -/
theorem invocations_failureEntry (r : Run) (step : Step) {fault : Fault}
    (rejected : fault.kind = .sinkRejected) :
    (r.failureEntry step fault).sinkResults.map SinkResult.invocation =
      [(rejection fault).invocation] := by
  unfold failureEntry
  rw [if_pos rejected]
  rfl

/-- If a turn comes to something, what it writes down of sinks is what they have said before and what
has been counted of them in it, beside the sources that have been asked. -/
def Accounts (w : World) (r : Run) (step : Step) (asked : List Invocation) (after : World × Turn) :
    Prop :=
  after.2 ≠ .stalled → ∃ news, w.Counts after.1 (asked ++ news) ∧
    (after.2.told step).map SinkResult.invocation =
      r.answered.map SinkResult.invocation ++ news

theorem Quietly.accounts {asked : List Invocation} {after : World × Turn}
    (quietly : Quietly w asked after) (nil : r.calls = []) : Accounts w r step asked after := by
  intro comes
  obtain ⟨counts, unheard⟩ := quietly comes
  refine ⟨[], (List.append_nil asked).symm ▸ counts, ?_⟩
  rw [unheard.told_eq_nil, answered_of_nil nil]
  rfl

/-- The verdict of the last sinks is not counted. -/
theorem conclude_accounts (step : Step) (w : World) (r₁ : Run) (shown : StepTrace) (delivered : Value) :
    (conclude w r₁ shown delivered).1.metrics = w.metrics ∧
      (conclude w r₁ shown delivered).2.told step = shown.sinkResults := by
  unfold conclude
  dsimp only
  split
  · exact ⟨rfl, rfl⟩
  · exact ⟨rfl, rfl⟩

theorem runSink_accounts {id : String} (there : network.sinks.has id = true) (nil : r.calls = []) :
    Accounts w r step [] (runSink network w r step id) := by
  unfold runSink
  split
  · have quietly : Quietly w [] (w, .failed r ⟨.noActiveValue step.kind, some r.next⟩) :=
      fun _ => ⟨World.counts_of_metrics rfl, nofun⟩
    exact quietly.accounts nil
  · rename_i value _
    have counts := World.counts_callSink w there r.location value.forward r.timeout
    have rejects (outcome : Except Fault SinkResult)
        (came : (w.callSink network r.location id value.forward r.timeout).1 = some outcome) :=
      (said_of_callSink there came).2
    dsimp only
    cases called : w.callSink network r.location id value.forward r.timeout with
    | mk outcome w₁ =>
        rw [called] at counts rejects
        cases outcome with
        | none => exact fun comes => absurd rfl comes
        | some ended =>
            intro _
            rw [answered_of_nil nil]
            refine ⟨[(said ended).invocation], ?_⟩
            cases ended with
            | error fault =>
                exact ⟨counts, invocations_failureEntry r step (rejects _ rfl fault rfl)⟩
            | ok result =>
                obtain ⟨metrics, told⟩ := conclude_accounts step w₁ _ _ value.forward
                exact ⟨counts.of_metrics metrics, congrArg _ told⟩

/-- What several sinks say is what they have said before and what is counted of them now. -/
theorem counts_fanoutOutcomes (w : World) (r : Run) (value : Value) {sinks : List String}
    (there : ∀ id ∈ sinks, network.sinks.has id = true) :
    ∃ w₁ news, (if r.calls.isEmpty then callSinks network w r value sinks
        else (r.calls.map SinkCall.outcome?, w)) = (sinkOutcomes network w r value sinks, w₁) ∧
      w.Counts w₁ news ∧
      (((sinkOutcomes network w r value sinks).filterMap id).map said).map SinkResult.invocation =
        r.answered.map SinkResult.invocation ++ news := by
  unfold sinkOutcomes
  split
  · rename_i empty
    refine ⟨_, _, rfl, counts_callSinks w r value there, ?_⟩
    rw [answered_of_nil (List.isEmpty_iff.mp empty), List.map_map]
    rfl
  · refine ⟨w, [], rfl, World.counts_of_metrics rfl, ?_⟩
    rw [List.filterMap_map, List.append_nil]
    rfl

theorem ite_accounts {asked : List Invocation} {c : Prop} [Decidable c] {first second : World × Turn}
    (one : Accounts w r step asked first) (other : Accounts w r step asked second) :
    Accounts w r step asked (if c then first else second) := by
  split
  · exact one
  · exact other

theorem runFanout_accounts (poised : Poised network r) {sinks : List String}
    (here : r.chain.steps[r.next]? = some (.fanout sinks))
    (there : ∀ id ∈ sinks, network.sinks.has id = true) :
    Accounts w r (.fanout sinks) [] (runFanout network w r (.fanout sinks) sinks) := by
  unfold runFanout
  cases top : r.top? with
  | none =>
      have nobody : r.nextSinks = [] := by
        unfold nextSinks
        rw [here, top]
      have quietly : Quietly w []
          (w, .failed r ⟨.noActiveValue (Step.fanout sinks).kind, some r.next⟩) :=
        fun _ => ⟨World.counts_of_metrics rfl, nofun⟩
      exact quietly.accounts (poised.calls_eq_nil nobody)
  | some value =>
      obtain ⟨w₁, news, called, counts, balance⟩ := counts_fanoutOutcomes w r value.forward there
      dsimp only
      rw [called]
      dsimp only
      cases came : (sinkOutcomes network w r value.forward sinks).mapM id with
      | none => exact fun comes => absurd rfl comes
      | some outcomes =>
          have handed := mapM_id_eq_some came
          have atMost := (said_of_handed poised here top there handed).2
          obtain ⟨rejected, gathered⟩ := gatherSinks_of_atMostRejected atMost
          have all : (outcomes.map said).map SinkResult.invocation =
              r.answered.map SinkResult.invocation ++ news := by
            rw [← balance, handed, List.filterMap_map]
            exact congrArg (fun given => (List.map said given).map SinkResult.invocation)
              (List.filterMap_some).symm
          dsimp only
          rw [gathered]
          cases rejected with
          | some fault => exact fun _ => ⟨news, counts.of_metrics rfl, all⟩
          | none =>
              refine ite_accounts (fun _ => ?_) fun _ => ⟨news, counts, all⟩
              obtain ⟨metrics, told⟩ := conclude_accounts (.fanout sinks) w₁ _ _ value.forward
              exact ⟨news, counts.of_metrics metrics, (congrArg _ told).trans all⟩

/-- A turn of a step of which all sources and sinks are registered. -/
theorem runStep_accounts (blameless : network.engine.Blameless) (poised : Poised network r)
    (here : r.chain.steps[r.next]? = some step)
    (sources : ∀ id ∈ step.sources, network.sources.has id = true)
    (sinks : ∀ id ∈ step.sinks, network.sinks.has id = true) :
    Accounts w r step (r.asks?.toList.map .asked) (runStep network w r step) := by
  have nobody (other : step.kind ≠ .fanout) : r.calls = [] :=
    poised.calls_eq_nil (nextSinks_eq_nil here other)
  unfold asks?
  rw [here]
  cases step with
  | source id =>
      exact (runSource_quietly (sources id List.mem_cons_self)).accounts (nobody nofun)
  | relay id params => exact (runRelay_quietly blameless id params).accounts (nobody nofun)
  | store target => exact (runStore_quietly target).accounts (nobody nofun)
  | load origin => exact (runLoad_quietly origin).accounts (nobody nofun)
  | merge inputs loads id params =>
      exact (runMerge_quietly blameless sources loads id params).accounts (nobody nofun)
  | fanout names => exact runFanout_accounts poised here sinks
  | sink id => exact runSink_accounts (sinks id List.mem_cons_self) (nobody nofun)

/-! ## A turn as a whole -/

/-- After a turn its step has been counted, which is not an invocation. -/
theorem counts_afterTurn {turn : Turn} (turned : afterTurn step r w turn = some (w', r')) :
    w.Counts w' [] := by
  have counts := World.counts_count w (.steps step.kind)
  cases turn with
  | stalled => cases turned
  | partly after =>
      obtain ⟨rfl, -⟩ := Prod.mk.inj (Option.some.inj turned)
      exact World.counts_of_metrics rfl
  | failed after fault =>
      obtain ⟨rfl, -⟩ := Prod.mk.inj (Option.some.inj turned)
      exact counts.of_metrics rfl
  | crashed after mishap =>
      obtain ⟨rfl, -⟩ := Prod.mk.inj (Option.some.inj turned)
      exact counts.of_metrics rfl
  | passed after shown =>
      obtain ⟨rfl, -⟩ := Prod.mk.inj (Option.some.inj turned)
      exact counts

/-- What a turn writes down of sinks is in the result of its run. -/
theorem sinkResults_of_advance (here : r.chain.steps[r.next]? = some step)
    (turned : advance network w r = some (w', r')) :
    r'.result.sinkResults = r.result.sinkResults ++ (runStep network w r step).2.told step := by
  have running := (running_of_advance turned).1
  rw [advance_eq running here] at turned
  have writes := runStep_writes network w r step
  generalize runStep network w r step = both at turned writes ⊢
  obtain ⟨w₁, turn⟩ := both
  cases turn with
  | stalled => cases turned
  | partly after =>
      obtain ⟨-, rfl⟩ := Prod.mk.inj (Option.some.inj turned)
      exact (congrArg RunResult.sinkResults writes.result).trans (List.append_nil _).symm
  | failed after fault =>
      obtain ⟨-, rfl⟩ := Prod.mk.inj (Option.some.inj turned)
      exact (fail_records writes (w₁.count (.steps step.kind)) step fault).heard
  | crashed after mishap =>
      obtain ⟨-, rfl⟩ := Prod.mk.inj (Option.some.inj turned)
      exact (congrArg RunResult.sinkResults writes.result).trans (List.append_nil _).symm
  | passed after shown => exact (Written.records writes running turned).heard

/-- **A turn writes down what it counts.**  A turn of a run counts the source that it asks and what
sinks say in it; that, and what sinks have said before when they were called one by one, is what it
adds to the results of its run. -/
theorem counts_of_advance (blameless : network.engine.Blameless) (poised : Poised network r)
    (valid : r.chain.validate network = .ok ()) (turned : advance network w r = some (w', r')) :
    ∃ news, w.Counts w' (r.asks?.toList.map .asked ++ news) ∧
      r'.result.sinkResults.map SinkResult.invocation =
        (r.result.sinkResults ++ r.answered).map SinkResult.invocation ++ news := by
  obtain ⟨running, step, here⟩ := running_of_advance turned
  obtain ⟨sources, sinks, _⟩ := Chain.registered_of_here valid here
  have results := sinkResults_of_advance here turned
  rw [advance_eq running here] at turned
  have comes : (runStep network w r step).2 ≠ .stalled := by
    intro stalled
    rw [stalled] at turned
    cases turned
  obtain ⟨news, counts, told⟩ := runStep_accounts blameless poised here sources sinks comes
  refine ⟨news, ?_, ?_⟩
  · have whole := counts.trans (counts_afterTurn turned)
    rwa [List.append_nil] at whole
  · rw [results, List.map_append, told, List.map_append, List.append_assoc]

end Run

end TaintFlow
