import TaintFlow.Proofs.Relay.Loss
import TaintFlow.Proofs.Run.Raising

/-!
# What is reported of timeouts

A call of a source or a sink, and an operator that suspends, may be bounded.  If it
has not finished when its timeout ends it, it is reported to have run out of time.
If it raises something before that, this is what is reported, with one exception:
what it raises may itself be the mishap of time that ran out, which is taken for
the timeout.  The main statement is `timeouts_reported`.
-/

namespace TaintFlow

/-! ## Calls of capabilities -/

namespace Capability

variable {capability : Capability} {history : List Payload} {argument : Payload}
  {timeout : Option Timeout} {mishap : Mishap}

/-- The call has not finished when its timeout ends it. -/
def Outlasts (capability : Capability) (history : List Payload) (argument : Payload)
    (timeout : Option Timeout) : Prop :=
  ∃ limit, reach timeout = .ok (some limit) ∧
    (capability.pace history argument).isEndedBy limit = true

/-- The call raises a mishap, and no timeout ends it before. -/
structure RaisesInTime (capability : Capability) (history : List Payload) (argument : Payload)
    (timeout : Option Timeout) (mishap : Mishap) : Prop where
  bounded : ∃ limit, reach timeout = .ok limit
  raises : ∃ after, capability.respond history argument = .raises mishap after
  ends : (capability.pace history argument).isEndless = false
  inTime : ¬ capability.Outlasts history argument timeout

/-- The call ends for want of time, or because it raises the mishap of time that ran out. -/
def RunsOut (capability : Capability) (history : List Payload) (argument : Payload)
    (timeout : Option Timeout) : Prop :=
  capability.Outlasts history argument timeout ∨
    ∃ mishap, capability.RaisesInTime history argument timeout mishap ∧ mishap.isTimeout = true

theorem outlasts_iff {limit : Option Timeout.Reach} (bounded : reach timeout = .ok limit) :
    capability.Outlasts history argument timeout ↔
      limit.any (capability.pace history argument).isEndedBy = true := by
  unfold Outlasts
  rw [bounded]
  cases limit with
  | none =>
      constructor
      · rintro ⟨_, same, _⟩
        cases same
      · intro ended
        cases ended
  | some limit =>
      constructor
      · rintro ⟨_, same, ended⟩
        obtain rfl := Option.some.inj (Except.ok.inj same)
        exact ended
      · exact fun ended => ⟨limit, rfl, ended⟩

theorem callEnd_of_outlasts (late : capability.Outlasts history argument timeout) :
    capability.callEnd history argument timeout = .timedOut := by
  obtain ⟨limit, bounded, ended⟩ := late
  unfold callEnd
  rw [bounded]
  dsimp only
  rw [Option.any_some, if_pos ended]

theorem callEnd_of_raisesInTime
    (raised : capability.RaisesInTime history argument timeout mishap) :
    capability.callEnd history argument timeout =
      if mishap.isTimeout then .timedOut else .raised (capability.surfaced mishap) := by
  obtain ⟨⟨limit, bounded⟩, ⟨after, raises⟩, ends, inTime⟩ := raised
  rw [outlasts_iff bounded] at inTime
  unfold callEnd
  rw [bounded]
  dsimp only
  rw [if_neg inTime, ends, if_neg Bool.false_ne_true, raises]

/-- A call is taken to have timed out in these two cases only. -/
theorem callEnd_timedOut_iff : capability.callEnd history argument timeout = .timedOut ↔
    capability.RunsOut history argument timeout := by
  constructor
  · intro timedOut
    by_cases late : capability.Outlasts history argument timeout
    · exact .inl late
    · cases bounded : reach timeout with
      | error mishap =>
          unfold callEnd at timedOut
          rw [bounded] at timedOut
          cases timedOut
      | ok limit =>
          have inTime := late
          rw [outlasts_iff bounded] at inTime
          unfold callEnd at timedOut
          rw [bounded] at timedOut
          dsimp only at timedOut
          rw [if_neg inTime] at timedOut
          split at timedOut
          · cases timedOut
          · rename_i ends
            split at timedOut
            · cases timedOut
            · rename_i mishap after raises
              split at timedOut
              · rename_i itself
                exact .inr ⟨mishap,
                  ⟨⟨limit, bounded⟩, ⟨after, raises⟩, Bool.not_eq_true _ ▸ ends, late⟩, itself⟩
              · cases timedOut
            · cases timedOut
  · rintro (late | ⟨mishap, raised, itself⟩)
    · exact callEnd_of_outlasts late
    · rw [callEnd_of_raisesInTime raised, if_pos itself]

end Capability

/-! ## Calls of sources and sinks -/

namespace World

/-- What a caller of a component is told, and what is counted, by how the call ended. -/
def Tells {α : Type} (w : World) (call : Outcome α) (metric : CallOutcome → Metric) (late : Fault)
    (failed : Mishap → Fault) : CallEnd → Prop
  | .pending => call.1 = none ∧ call.2.metrics = w.metrics
  | .timedOut => call.1 = some (.error late) ∧ call.2.metrics = w.metrics.bump (metric .timeout)
  | .raised mishap =>
    call.1 = some (.error (failed mishap)) ∧ call.2.metrics = w.metrics.bump (metric .error)
  | .returned _ => (∃ a, call.1 = some (.ok a)) ∧ call.2.metrics = w.metrics.bump (metric .fine)

variable {network : Network} {id : String}

theorem callSource_tells (w : World) (at_ : Location) (context : Payload) (given : Option Timeout)
    {s : Source} (found : network.sources.find? id = some s) :
    Tells w (w.callSource network at_ id context given) (.sourceCalls id)
      ⟨.sourceTimedOut id (timeoutOf network given s.timeout), none⟩
      (fun mishap => ⟨.sourceFailed id mishap, none⟩)
      (s.capability.callEnd (w.callsOf (.source id)) context
        (timeoutOf network given s.timeout)) := by
  unfold callSource Sources.get
  rw [found]
  dsimp only [callCapability]
  cases s.capability.callEnd (w.callsOf (.source id)) context (timeoutOf network given s.timeout) with
  | pending => exact ⟨rfl, rfl⟩
  | timedOut => exact ⟨rfl, rfl⟩
  | raised mishap => exact ⟨rfl, rfl⟩
  | returned payload => exact ⟨⟨_, rfl⟩, rfl⟩

theorem callSink_tells (w : World) (at_ : Location) (value : Value) (given : Option Timeout)
    {s : Sink} (found : network.sinks.find? id = some s) :
    Tells w (w.callSink network at_ id value given) (.sinkCalls id)
      ⟨.sinkTimedOut id (timeoutOf network given s.timeout) value.labels value.hops, none⟩
      (fun mishap => ⟨.sinkFailed id mishap value.labels value.hops, none⟩)
      (s.capability.callEnd (w.callsOf (.sink id)) value.payload
        (timeoutOf network given s.timeout)) := by
  unfold callSink Sinks.get
  rw [found]
  dsimp only [callCapability]
  cases s.capability.callEnd (w.callsOf (.sink id)) value.payload
    (timeoutOf network given s.timeout) with
  | pending => exact ⟨rfl, rfl⟩
  | timedOut => exact ⟨rfl, rfl⟩
  | raised mishap => exact ⟨rfl, rfl⟩
  | returned payload => exact ⟨⟨_, rfl⟩, rfl⟩

/-- How a call of a component is reported and counted: as out of time exactly if it runs out, and
otherwise, if it raises something in time, as a failure that names what it raises. -/
structure Reports {α : Type} (w : World) (call : Outcome α) (metric : CallOutcome → Metric)
    (late : Fault) (failed : Mishap → Fault) (runsOut : Prop) (raises : Mishap → Prop) : Prop where
  late_iff : call.1 = some (.error late) ↔ runsOut
  counted_iff : call.2.metrics.count (metric .timeout) =
    w.metrics.count (metric .timeout) + 1 ↔ runsOut
  raised : ∀ mishap, raises mishap → mishap.isTimeout = false →
    call.1 = some (.error (failed mishap)) ∧ call.2.metrics = w.metrics.bump (metric .error)

section

variable {α : Type} {w : World} {call : Outcome α} {metric : CallOutcome → Metric} {late : Fault}
  {failed : Mishap → Fault} {ending : CallEnd}

/-- Only a call that has timed out is reported so. -/
theorem Tells.late_iff (tells : Tells w call metric late failed ending)
    (other : ∀ mishap, failed mishap ≠ late) :
    call.1 = some (.error late) ↔ ending = .timedOut := by
  cases ending with
  | timedOut => exact ⟨fun _ => rfl, fun _ => tells.1⟩
  | pending =>
      rw [tells.1]
      exact ⟨nofun, nofun⟩
  | raised mishap =>
      rw [tells.1]
      exact ⟨fun same => absurd (Except.error.inj (Option.some.inj same)) (other mishap), nofun⟩
  | returned payload =>
      obtain ⟨⟨a, told⟩, _⟩ := tells
      rw [told]
      exact ⟨nofun, nofun⟩

/-- Only a call that has timed out is counted so. -/
theorem Tells.counted_iff (tells : Tells w call metric late failed ending)
    (apart : ∀ outcome, metric .timeout = metric outcome → outcome = .timeout) :
    call.2.metrics.count (metric .timeout) = w.metrics.count (metric .timeout) + 1 ↔
      ending = .timedOut := by
  have counts {outcome : CallOutcome} (counted : call.2.metrics = w.metrics.bump (metric outcome)) :
      call.2.metrics.count (metric .timeout) = w.metrics.count (metric .timeout) + 1 ↔
        metric .timeout = metric outcome := by
    rw [counted, Metrics.count_bump, Nat.add_left_cancel_iff]
    split
    · rename_i same
      exact iff_of_true rfl same
    · rename_i other
      exact iff_of_false (Nat.zero_ne_one) other
  cases ending with
  | timedOut => exact ⟨fun _ => rfl, fun _ => (counts tells.2).mpr rfl⟩
  | pending =>
      rw [tells.2]
      exact ⟨fun same => absurd same (Nat.succ_ne_self _).symm, nofun⟩
  | raised mishap =>
      rw [counts tells.2]
      exact iff_of_false (fun same => nomatch apart .error same) nofun
  | returned payload =>
      rw [counts tells.2]
      exact iff_of_false (fun same => nomatch apart .fine same) nofun

/-- What a caller is told is what is reported of the call. -/
theorem Tells.reports {capability : Capability} {history : List Payload} {argument : Payload}
    {timeout : Option Timeout}
    (tells : Tells w call metric late failed (capability.callEnd history argument timeout))
    (apart : ∀ outcome, metric .timeout = metric outcome → outcome = .timeout)
    (other : ∀ mishap, failed mishap ≠ late) :
    Reports w call metric late (fun mishap => failed (capability.surfaced mishap))
      (capability.RunsOut history argument timeout)
      (capability.RaisesInTime history argument timeout) where
  late_iff := (tells.late_iff other).trans Capability.callEnd_timedOut_iff
  counted_iff := (tells.counted_iff apart).trans Capability.callEnd_timedOut_iff
  raised mishap raises otherKind := by
    rw [Capability.callEnd_of_raisesInTime raises, otherKind, if_neg Bool.false_ne_true] at tells
    exact tells

end

end World

/-! ## Operators that suspend -/

namespace Engine

variable {engine : Engine} {operator : Operator} {inputs : List Value} {params : Params}
  {store : Store}

/-- The function of a registered operator is called on inputs that the operator takes, and has not
finished when its limit ends it. -/
structure Outlasts (engine : Engine) (operator : Operator) (inputs : List Value) (params : Params)
    (store : Store) (seconds : Number.Binary64) : Prop where
  found : engine.operators.find? operator.id = some operator
  nonempty : inputs ≠ []
  accepts : operator.accepts inputs.length = true
  answer : ∃ rest, engine.bound operator params = .ok (some seconds, rest) ∧
    (operator.call inputs rest store).wait.isEndedBy (.ofSeconds seconds) = true

/-- What the function raises is what the engine raises for want of time: it is the mishap of time
that ran out, under a limit, or the very fault. -/
def RunsOut (engine : Engine) (operator : Operator) (params : Params) (step : Option Int)
    (seconds : Number.Binary64) : Trouble → Prop
  | .mishap mishap =>
    mishap.isTimeout = true ∧ ∃ rest, engine.bound operator params = .ok (some seconds, rest)
  | .invalid _ => False
  | .fault fault => fault.atStep step = ⟨.notResumed operator.id seconds, step⟩

/-- No check of an output says that its operator did not resume. -/
theorem conclude_ne_notResumed (inputs : List Value) (step : Option Int) (payload : Payload)
    (seconds : Number.Binary64) :
    conclude operator inputs step payload ≠ .error ⟨.notResumed operator.id seconds, step⟩ := by
  intro refused
  rcases conclude_eq_error refused with other | ⟨_, _, _, _, _, other⟩
  · cases other
  · cases other

/-- What the engine says of trouble is that time ran out exactly if the trouble is of this kind. -/
theorem report_notResumed_iff {limit : Option Number.Binary64} {rest : Params}
    (bounded : engine.bound operator params = .ok (limit, rest)) (step : Option Int)
    (seconds : Number.Binary64) (trouble : Trouble) :
    report operator.id limit step trouble = ⟨.notResumed operator.id seconds, step⟩ ↔
      engine.RunsOut operator params step seconds trouble := by
  cases trouble with
  | fault fault => exact Iff.rfl
  | invalid what => exact iff_of_false nofun id
  | mishap mishap =>
      unfold report RunsOut
      rw [bounded]
      cases limit with
      | none =>
          refine iff_of_false nofun ?_
          rintro ⟨_, _, same⟩
          cases same
      | some usual =>
          dsimp only
          cases mishap.isTimeout with
          | false => exact iff_of_false nofun fun ⟨itself, _⟩ => nomatch itself
          | true =>
              constructor
              · intro same
                cases same
                exact ⟨rfl, rest, rfl⟩
              · rintro ⟨_, _, same⟩
                cases same
                rfl

/-- A function that is called comes to what is settled of its answer. -/
theorem outcome_of_bound {limit : Option Number.Binary64} {rest : Params}
    (found : engine.operators.find? operator.id = some operator) (nonempty : inputs ≠ [])
    (accepts : operator.accepts inputs.length = true)
    (bounded : engine.bound operator params = .ok (limit, rest)) (step : Option Int) :
    (engine.apply operator.id inputs params step store).outcome =
      settle operator inputs step limit (operator.call inputs rest store) := by
  have counted : (inputs.isEmpty || !operator.accepts inputs.length) = false := by
    rw [List.isEmpty_eq_false_iff.mpr nonempty, accepts]
    rfl
  unfold Engine.apply
  rw [get_eq_ok.mpr found]
  dsimp only
  rw [counted, if_neg Bool.false_ne_true, bounded]

/-- An answer is settled as out of time if it expires or is reported so. -/
theorem settle_notResumed_iff {limit : Option Number.Binary64} {answer : Answer}
    (step : Option Int) (seconds : Number.Binary64) :
    settle operator inputs step limit answer =
        some (.error ⟨.notResumed operator.id seconds, step⟩) ↔
      (limit = some seconds ∧ isExpired limit answer = true) ∨
        isExpired limit answer = false ∧ answer.wait.isEndless = false ∧ ∃ trouble,
          answer.result = .error trouble ∧
            report operator.id limit step trouble = ⟨.notResumed operator.id seconds, step⟩ := by
  unfold settle
  cases expired : isExpired limit answer with
  | true =>
      cases limit with
      | none => cases expired
      | some usual =>
          rw [if_pos rfl, Option.map_some]
          constructor
          · intro same
            cases same
            exact .inl ⟨rfl, rfl⟩
          · rintro (⟨same, _⟩ | ⟨inTime, _⟩)
            · cases same
              rfl
            · cases inTime
  | false =>
      rw [if_neg Bool.false_ne_true]
      cases ends : answer.wait.isEndless with
      | true =>
          rw [if_pos rfl]
          refine iff_of_false nofun ?_
          rintro (⟨_, inTime⟩ | ⟨_, inTime, _⟩)
          · cases inTime
          · cases inTime
      | false =>
          rw [if_neg Bool.false_ne_true]
          cases answered : answer.result with
          | ok payload =>
              refine iff_of_false ?_ ?_
              · exact fun same =>
                  conclude_ne_notResumed inputs step payload seconds (Option.some.inj same)
              · rintro (⟨_, inTime⟩ | ⟨_, _, _, raised, _⟩)
                · cases inTime
                · cases raised
          | error trouble =>
              constructor
              · intro same
                exact .inr ⟨rfl, rfl, trouble, rfl, Except.error.inj (Option.some.inj same)⟩
              · rintro (⟨_, inTime⟩ | ⟨_, _, _, raised, same⟩)
                · cases inTime
                · cases raised
                  exact congrArg (fun fault => some (Except.error fault)) same

/-- An operator that is reported so has been called. -/
theorem called_of_notResumed (found : engine.operators.find? operator.id = some operator)
    {step : Option Int} {seconds : Number.Binary64}
    (late : (engine.apply operator.id inputs params step store).outcome =
      some (.error ⟨.notResumed operator.id seconds, step⟩)) :
    inputs ≠ [] ∧ operator.accepts inputs.length = true ∧
      ∃ limit rest, engine.bound operator params = .ok (limit, rest) := by
  unfold apply at late
  rw [get_eq_ok.mpr found] at late
  dsimp only at late
  split at late
  · cases late
  · rename_i counted
    rw [Bool.or_eq_true, not_or, Bool.not_eq_true', Bool.not_eq_false] at counted
    refine ⟨fun none => counted.1 (List.isEmpty_iff.mpr none), counted.2, ?_⟩
    cases bounded : engine.bound operator params with
    | ok pair => exact ⟨pair.1, pair.2, rfl⟩
    | error mishap =>
        rw [bounded] at late
        cases late

/-- An operator is reported not to have resumed in these two cases only. -/
theorem apply_notResumed_iff (found : engine.operators.find? operator.id = some operator)
    (step : Option Int) (seconds : Number.Binary64) :
    (engine.apply operator.id inputs params step store).outcome =
        some (.error ⟨.notResumed operator.id seconds, step⟩) ↔
      engine.Outlasts operator inputs params store seconds ∨
        ∃ trouble, engine.Raises operator inputs params store trouble ∧
          engine.RunsOut operator params step seconds trouble := by
  constructor
  · intro late
    obtain ⟨nonempty, accepts, limit, rest, bounded⟩ := called_of_notResumed found late
    rw [outcome_of_bound found nonempty accepts bounded, settle_notResumed_iff] at late
    rcases late with ⟨rfl, expired⟩ | ⟨inTime, ends, trouble, raised, same⟩
    · exact .inl ⟨found, nonempty, accepts, rest, bounded, expired⟩
    · exact .inr ⟨trouble, ⟨found, nonempty, accepts, limit, rest, bounded, inTime, ends, raised⟩,
        (report_notResumed_iff bounded step seconds trouble).mp same⟩
  · rintro (⟨_, nonempty, accepts, rest, bounded, ended⟩ | ⟨trouble, raises, runsOut⟩)
    · rw [outcome_of_bound found nonempty accepts bounded, settle_notResumed_iff]
      exact .inl ⟨rfl, ended⟩
    · obtain ⟨_, nonempty, accepts, limit, rest, bounded, inTime, ends, raised⟩ := raises
      rw [outcome_of_bound found nonempty accepts bounded, settle_notResumed_iff]
      exact .inr ⟨inTime, ends, trouble, raised,
        (report_notResumed_iff bounded step seconds trouble).mpr runsOut⟩

/-- How the engine reports an operator: that it did not resume in these two cases only, and otherwise
what it raises in time, under its name; the library's own faults pass through. -/
structure Reports (engine : Engine) (operator : Operator) (inputs : List Value) (params : Params)
    (store : Store) (step : Option Int) (outcome : Option (Except Fault Value)) : Prop where
  late_iff : ∀ seconds, outcome = some (.error ⟨.notResumed operator.id seconds, step⟩) ↔
    engine.Outlasts operator inputs params store seconds ∨
      ∃ trouble, engine.Raises operator inputs params store trouble ∧
        engine.RunsOut operator params step seconds trouble
  raised : ∀ mishap, engine.Raises operator inputs params store (.mishap mishap) →
    mishap.isTimeout = false ∨ (∃ rest, engine.bound operator params = .ok (none, rest)) →
      outcome = some (.error ⟨.operatorRaised operator.id mishap.outOfTurn, step⟩)
  rejected : ∀ what, engine.Raises operator inputs params store (.invalid what) →
    outcome = some (.error ⟨.operatorRejected operator.id what, step⟩)
  passed : ∀ fault, engine.Raises operator inputs params store (.fault fault) →
    outcome = some (.error (fault.atStep step))

theorem apply_reports (found : engine.operators.find? operator.id = some operator)
    (step : Option Int) : engine.Reports operator inputs params store step
      (engine.apply operator.id inputs params step store).outcome where
  late_iff seconds := apply_notResumed_iff found step seconds
  raised mishap raises other := by
    obtain ⟨_, nonempty, accepts, limit, rest, bounded, inTime, ends, raised⟩ := raises
    have reported : report operator.id limit step (.mishap mishap) =
        ⟨.operatorRaised operator.id mishap.outOfTurn, step⟩ := by
      unfold report
      rw [bounded] at other
      cases limit with
      | none => rfl
      | some seconds =>
          rcases other with otherKind | ⟨_, same⟩
          · dsimp only
            rw [otherKind, if_neg Bool.false_ne_true]
          · cases same
    rw [outcome_of_bound found nonempty accepts bounded]
    unfold settle
    rw [inTime, if_neg Bool.false_ne_true, ends, if_neg Bool.false_ne_true, raised]
    exact congrArg (fun fault => some (Except.error fault)) reported
  rejected what raises := by
    obtain ⟨limit, applied⟩ := raises.apply step
    exact applied
  passed fault raises := by
    obtain ⟨limit, applied⟩ := raises.apply step
    exact applied

end Engine

/-! ## All of them -/

/-- **What is reported of timeouts.**  A source and a sink are reported to have timed out, and are
counted so, exactly if the call has not finished when its timeout ends it, or raises the mishap of time
that ran out itself; and an operator is reported not to have resumed exactly if it has not finished
when its limit ends it, or raises such a mishap under a limit, or this very fault.  Anything else that
is raised in time is reported as a failure that names it, and calls are counted as errors then. -/
theorem timeouts_reported {network : Network} (w : World) (at_ : World.Location)
    (given : Option Timeout) :
    (∀ id s context, network.sources.find? id = some s →
      let timeout := World.timeoutOf network given s.timeout
      let history := w.callsOf (.source id)
      World.Reports w (w.callSource network at_ id context given) (.sourceCalls id)
        ⟨.sourceTimedOut id timeout, none⟩
        (fun mishap => ⟨.sourceFailed id (s.capability.surfaced mishap), none⟩)
        (s.capability.RunsOut history context timeout)
        (s.capability.RaisesInTime history context timeout)) ∧
    (∀ id s value, network.sinks.find? id = some s →
      let timeout := World.timeoutOf network given s.timeout
      let history := w.callsOf (.sink id)
      World.Reports w (w.callSink network at_ id value given) (.sinkCalls id)
        ⟨.sinkTimedOut id timeout value.labels value.hops, none⟩
        (fun mishap => ⟨.sinkFailed id (s.capability.surfaced mishap) value.labels value.hops, none⟩)
        (s.capability.RunsOut history value.payload timeout)
        (s.capability.RaisesInTime history value.payload timeout)) ∧
    ∀ operator inputs params step, network.engine.operators.find? operator.id = some operator →
      network.engine.Reports operator inputs params w.store step
        (w.applyOperator network at_ operator.id inputs params step).1 := by
  refine ⟨fun id s context found => ?_, fun id s value found => ?_,
    fun operator inputs params step found => ?_⟩
  · refine (World.callSource_tells w at_ context given found).reports ?_ nofun
    rintro outcome ⟨⟩
    rfl
  · refine (World.callSink_tells w at_ value given found).reports ?_ nofun
    rintro outcome ⟨⟩
    rfl
  · rw [World.applyOperator_outcome]
    exact Engine.apply_reports found step

/-- An operator that raises something when it resumes after a second. -/
def resuming : Operator where
  id := "resume"
  suspends := true
  action := .onValues fun _ _ _ =>
    { result := .error (.mishap (.noKey "1")), wait := [.timer (.ofInt 1), .turn] }

/-- A source that goes wrong after three seconds, a sink that takes seven, and the operator above.
All may take five. -/
def sluggish : Network where
  sources := [("form",
    { id := "form", category := .httpBody
      capability := { respond := fun _ _ => .raises (.badValue "no form") [.timer (.ofInt 3)] } })]
  sinks := [("shell",
    { id := "shell", categories := .ofList [.command]
      capability := { respond := fun _ _ => .returns .null [.timer (.ofInt 7)], direct := true } })]
  engine := { operators := [("resume", resuming)], boundary := some (.ofInt 5) }
  usualTimeout := some (.ofInt 5)

/-- The source failed, the sink has timed out, and the operator raised its mishap. -/
theorem timeouts_reported_sluggish :
    (World.callSource {} sluggish {} "form" .null none).1 =
        some (.error ⟨.sourceFailed "form" (.badValue "no form"), none⟩) ∧
      (World.callSink {} sluggish {} "shell" {} none).1 =
        some (.error ⟨.sinkTimedOut "shell" (some (.fraction (.ofInt 5))) ∅ 0, none⟩) ∧
      (World.applyOperator {} sluggish {} "resume" [{}] [] none).1 =
        some (.error ⟨.operatorRaised "resume" (.noKey "1"), none⟩) := by
  obtain ⟨sources, sinks, operators⟩ := @timeouts_reported sluggish {} {} none
  have source := (sources "form" _ .null rfl).raised (.badValue "no form")
  have sink := (sinks "shell" _ {} rfl).late_iff
  have operator := (operators resuming [{}] [] none rfl).raised (.noKey "1")
  refine ⟨(source ?_ rfl).1, sink.mpr (.inl ?_), operator ?_ (.inl rfl)⟩
  · constructor
    · exact ⟨_, rfl⟩
    · exact ⟨_, rfl⟩
    · decide +kernel
    · rw [Capability.outlasts_iff rfl]
      decide +kernel
  · exact (Capability.outlasts_iff rfl).mpr (by decide +kernel)
  · refine ⟨rfl, nofun, rfl, some (.ofInt 5), [], rfl, ?_, ?_, rfl⟩
    · decide +kernel
    · decide +kernel

/-- A source that raises the mishap of time that ran out at once. -/
def hasty : Network where
  sources := [("form",
    { id := "form", category := .httpBody
      capability := { respond := fun _ _ => .raises (.timedOut "x"), direct := true } })]
  engine := {}

/-- No timeout bounds the source, and still it is reported and counted to have timed out. -/
theorem early_mishap_misreported :
    Capability.RaisesInTime { respond := fun _ _ => .raises (.timedOut "x"), direct := true } []
        .null none (.timedOut "x") ∧
      (World.callSource {} hasty {} "form" .null none).1 =
        some (.error ⟨.sourceTimedOut "form" none, none⟩) ∧
      (World.callSource {} hasty {} "form" .null none).2.metrics =
        [(.sourceCalls "form" .timeout, 1)] := by
  refine ⟨⟨⟨_, rfl⟩, ⟨_, rfl⟩, by decide +kernel, ?_⟩, rfl, rfl⟩
  rw [Capability.outlasts_iff rfl]
  exact Bool.false_ne_true

end TaintFlow
