import TaintFlow.Proofs.Run.Application

/-!
# Operators that raise

What the function of an operator raises comes out of the engine as a failure of
that operator at the step that is being done, and ends a run as such, unless it
is a fault of the library's own classes.  Such a fault passes through as it is:
it fits only if it already blames the operator, and names no other step.
-/

namespace TaintFlow

/-! ## In the engine -/

/-- A fault says that an operator failed at a step. -/
structure Fault.Blames (fault : Fault) (operator : String) (step : Option Int) : Prop where
  kind : fault.kind = .relayFailed
  component : fault.cause.component = some operator
  step : fault.step = step

/-- Trouble that can pass for a failure of an operator at a step: anything but a fault of the
library's own classes that says something else. -/
def Trouble.Fits (operator : String) (step : Option Int) : Trouble → Prop
  | .mishap _ | .invalid _ => True
  | .fault raised => (raised.atStep step).Blames operator step

namespace Engine

/-- The function of a registered operator is called on inputs that the operator takes, and raises
before its time runs out. -/
structure Raises (engine : Engine) (operator : Operator) (inputs : List Value) (params : Params)
    (store : Store) (trouble : Trouble) : Prop where
  found : engine.operators.find? operator.id = some operator
  nonempty : inputs ≠ []
  accepts : operator.accepts inputs.length = true
  answer : ∃ limit rest, engine.bound operator params = .ok (limit, rest) ∧
    isExpired limit (operator.call inputs rest store) = false ∧
    (operator.call inputs rest store).wait.isEndless = false ∧
    (operator.call inputs rest store).result = .error trouble

variable {engine : Engine} {operator : Operator} {inputs : List Value} {params : Params}
  {step : Option Int} {store : Store} {trouble : Trouble}

/-- Trouble is reported as a failure of its operator exactly if it fits. -/
theorem report_blames_iff (id : String) (limit : Option Number.Binary64) (step : Option Int)
    (trouble : Trouble) : (report id limit step trouble).Blames id step ↔ trouble.Fits id step := by
  cases trouble with
  | fault fault => exact Iff.rfl
  | invalid what => exact iff_of_true ⟨rfl, rfl, rfl⟩ trivial
  | mishap mishap =>
      refine iff_of_true ?_ trivial
      unfold report
      dsimp only
      split
      · split
        · exact ⟨rfl, rfl, rfl⟩
        · exact ⟨rfl, rfl, rfl⟩
      · exact ⟨rfl, rfl, rfl⟩

/-- A report has a step if its operator was applied at one. -/
theorem report_atStep (id : String) (limit : Option Number.Binary64) (step : Int)
    (trouble : Trouble) : (report id limit (some step) trouble).atStep (some step) =
      report id limit (some step) trouble := by
  cases trouble with
  | fault fault =>
      show (fault.atStep (some step)).atStep (some step) = fault.atStep (some step)
      unfold Fault.atStep
      cases fault.step <;> rfl
  | invalid what => rfl
  | mishap mishap =>
      unfold report
      dsimp only
      split
      · split
        · rfl
        · rfl
      · rfl

/-- The engine raises what it reports of the trouble of an operator. -/
theorem Raises.apply (raises : engine.Raises operator inputs params store trouble)
    (step : Option Int) : ∃ limit, (engine.apply operator.id inputs params step store).outcome =
      some (.error (report operator.id limit step trouble)) := by
  obtain ⟨limit, rest, bounded, inTime, ends, raised⟩ := raises.answer
  refine ⟨limit, ?_⟩
  have counted : (inputs.isEmpty || !operator.accepts inputs.length) = false := by
    rw [List.isEmpty_eq_false_iff.mpr raises.nonempty, raises.accepts]
    rfl
  unfold Engine.apply
  rw [get_eq_ok.mpr raises.found]
  dsimp only
  rw [counted, if_neg Bool.false_ne_true, bounded]
  dsimp only
  unfold settle
  rw [inTime, if_neg Bool.false_ne_true, ends, if_neg Bool.false_ne_true, raised]

end Engine

/-! ## In a run -/

namespace Run

variable {network : Network} {rely : World → World → Prop} {w w' : World} {r r' s : Run}

/-- A run has failed at the step at which it was, the failure blames an operator, and nothing has
been heard of a sink there. -/
structure GaveUpOn (r : Run) (operator : String) (s : Run) : Prop where
  state : s.state = .failed
  last : ∃ shown error, s.result.trace = r.result.trace ++ [shown] ∧ shown.index = r.next ∧
    shown.sinkResults = [] ∧ shown.error = some error ∧ s.result.error = some error ∧
    error.kind = .fault .relayFailed ∧ error.component = some operator ∧ error.step = some r.next
  heard : s.result.sinkResults = r.result.sinkResults

/-- What a run that has ended shows stays as it is. -/
theorem gaveUpOn_congr {operator : String} (terminal : r'.state.isTerminal = true)
    (path : Path network rely w' r' w s) :
    r.GaveUpOn operator s ↔ r.GaveUpOn operator r' := by
  obtain ⟨state, entries, heard, error⟩ := path.result_of_isTerminal terminal
  constructor
  · rintro ⟨failed, last, quiet⟩
    rw [entries, error] at last
    exact ⟨state.symm.trans failed, last, heard.symm.trans quiet⟩
  · rintro ⟨failed, last, quiet⟩
    rw [← entries, ← error] at last
    exact ⟨state.trans failed, last, heard.trans quiet⟩

theorem isTerminal_of_fail (w : World) (r : Run) (step : Step) (fault : Fault) :
    (fail w r step fault).2.state.isTerminal = true :=
  (stateAfter_eq fault).1

/-- A step that is given up with a fault blames an operator exactly if the fault does. -/
theorem gaveUpOn_fail_iff {r₁ : Run} (unwritten : Unwritten r r₁) (w : World) (step : Step)
    (fault : Fault) (operator : String) :
    r.GaveUpOn operator (fail w r₁ step fault).2 ↔
      (fault.atStep (some r.next)).Blames operator (some r.next) := by
  have records := fail_records unwritten w step fault
  obtain ⟨index, _, error⟩ := failureEntry_eq r₁ step fault
  have next := unwritten.next
  have shownStep : ((fault.atStep (some r₁.next)).record (some r₁.next)).step =
      (fault.atStep (some r.next)).step := by
    rw [next]
    unfold Fault.record Fault.atStep
    cases fault.step <;> rfl
  have kept : (fail w r₁ step fault).2.result.error =
      some ((fault.atStep (some r₁.next)).record (some r₁.next)) := rfl
  constructor
  · rintro ⟨_, ⟨shown, other, _, _, _, _, told, kind, component, at_⟩, _⟩
    obtain rfl := Option.some.inj (kept.symm.trans told)
    exact ⟨ErrorKind.fault.inj kind, component, shownStep.symm.trans at_⟩
  · rintro ⟨kind, component, at_⟩
    have relayFailed : fault.kind = .relayFailed := kind
    have quiet : (r₁.failureEntry step fault).sinkResults = [] := by
      unfold failureEntry
      rw [relayFailed, if_neg nofun]
      rfl
    refine ⟨?_, ⟨_, _, records.trace, records.index, quiet, error, kept, ?_, component,
      shownStep.trans at_⟩, ?_⟩
    · rw [fail_run]
      show stateAfter fault = .failed
      unfold stateAfter
      rw [relayFailed]
      rfl
    · exact congrArg ErrorKind.fault kind
    · rw [records.heard, quiet, List.append_nil]

/-- **What an operator raises is contained unless it is a fault that does not fit.**  The engine
always reports it, and blames the operator and the step exactly if it fits.  Every run that applies
the operator in its next turn ends with that turn; whatever happens afterwards, it has failed at the
step on account of the operator, with an error that its last entry shows and without a word of a
sink, exactly if what was raised fits. -/
theorem raising_contained_iff {network : Network} {w : World} {operator : Operator}
    {inputs : List Value} {params : Params} {trouble : Trouble}
    (raises : network.engine.Raises operator inputs params w.store trouble) :
    (∀ step, ∃ fault,
      (network.engine.apply operator.id inputs params step w.store).outcome = some (.error fault) ∧
        (fault.Blames operator.id step ↔ trouble.Fits operator.id step)) ∧
    ∀ r : Run, r.state = .running → r.application? network w = some ⟨operator.id, inputs, params⟩ →
      ∃ w' r', advance network w r = some (w', r') ∧ r'.state.isTerminal = true ∧
        ∀ (rely : World → World → Prop) v s, Path network rely w' r' v s →
          (r.GaveUpOn operator.id s ↔ trouble.Fits operator.id (some r.next)) := by
  constructor
  · intro step
    obtain ⟨limit, applied⟩ := raises.apply step
    exact ⟨_, applied, Engine.report_blames_iff operator.id limit step trouble⟩
  · intro r running asks
    obtain ⟨limit, applied⟩ := raises.apply (some r.next)
    have outcome := World.applyOperator_outcome w network r.location operator.id inputs params
      (some r.next)
    rw [applied] at outcome
    obtain ⟨w₂, r₁, step, _, unwritten, turned⟩ :=
      advance_of_failed running asks (Prod.ext outcome rfl)
    have terminal := isTerminal_of_fail w₂ r₁ step
      (Engine.report operator.id limit (some r.next) trouble)
    refine ⟨_, _, turned, terminal, fun _ _ _ path => ?_⟩
    rw [gaveUpOn_congr terminal path, gaveUpOn_fail_iff unwritten, Engine.report_atStep]
    exact Engine.report_blames_iff operator.id limit (some r.next) trouble

/-- An operator whose function raises. -/
def exploding (trouble : Trouble) : Operator where
  id := "explode"
  action := .onPayloads fun _ _ _ => { result := .error trouble }

/-- A source, a sink and an operator that raises. -/
def explosive (trouble : Trouble) : Network :=
  { shortcut with engine := { operators := [("explode", exploding trouble)] } }

/-- The chain from the source over the operator to the sink. -/
def explosion : Chain where
  id := "explosion"
  expected := .command
  steps := [.source "form", .relay "explode" [], .sink "shell"]
  steps_ne := nofun

theorem raises_exploding (trouble : Trouble) (value : Value) (store : Store) :
    (explosive trouble).engine.Raises (exploding trouble) [value] [] store trouble where
  found := rfl
  nonempty := List.cons_ne_nil value []
  accepts := rfl
  answer := ⟨none, [], rfl, rfl, rfl, rfl⟩

/-- A run has come to the operator that raises. -/
theorem application_explosion (trouble : Trouble) : ∃ w r value,
    Path (explosive trouble) (fun _ _ => False) {} (fresh explosion ⟨"1", none⟩ "1") w r ∧
      r.state = .running ∧ r.next = 1 ∧
      r.application? (explosive trouble) w = some ⟨"explode", [value], []⟩ := by
  obtain ⟨w₁, r₁, w₂, r₂, value, begun, turned, running, next, asks⟩ : ∃ w₁ r₁ w₂ r₂ value,
      start {} (fresh explosion ⟨"1", none⟩ "1") = .ok (w₁, r₁) ∧
        advance (explosive trouble) w₁ r₁ = some (w₂, r₂) ∧ r₂.state = .running ∧ r₂.next = 1 ∧
        r₂.application? (explosive trouble) w₂ = some ⟨"explode", [value], []⟩ :=
    ⟨_, _, _, _, _, rfl, rfl, rfl, rfl, rfl⟩
  exact ⟨w₂, r₂, value, (Path.here.moved (.begins begun)).moved (.turns turned), running, next,
    asks⟩

/-- A run fails on account of an operator that raises an error of its own. -/
theorem contained_exploding : ∃ w r w' r',
    Path (explosive (.mishap (.badValue "no"))) (fun _ _ => False) {}
      (fresh explosion ⟨"1", none⟩ "1") w r ∧
      advance (explosive (.mishap (.badValue "no"))) w r = some (w', r') ∧
      r.GaveUpOn "explode" r' := by
  obtain ⟨w, r, value, path, running, _, asks⟩ := application_explosion (.mishap (.badValue "no"))
  have raises := raises_exploding (.mishap (.badValue "no")) value w.store
  obtain ⟨w', r', turned, _, kept⟩ :=
    (raising_contained_iff raises).2 r running asks
  exact ⟨w, r, w', r', path, turned, (kept (fun _ _ => False) w' r' .here).mpr trivial⟩

/-- An operator that raises a rejection of its own accord is reported as a sink that has rejected
its value: neither the engine nor the run says that the operator failed, and the run shows a result
of a sink at a step that has none. -/
theorem rejection_not_contained : ∃ trouble w r w' r' fault,
    (explosive trouble).engine.Raises (exploding trouble) [{}] [] {} trouble ∧
      ((explosive trouble).engine.apply "explode" [{}] [] (some 1) {}).outcome =
        some (.error fault) ∧
      ¬ fault.Blames "explode" (some 1) ∧
      Path (explosive trouble) (fun _ _ => False) {} (fresh explosion ⟨"1", none⟩ "1") w r ∧
      r.next = 1 ∧ advance (explosive trouble) w r = some (w', r') ∧ r'.state = .failed ∧
      r'.result.error.map ErrorRecord.kind = some (.fault .sinkRejected) ∧
      r'.result.sinkResults ≠ [] := by
  let trouble : Trouble := .fault ⟨.reported .sinkRejected "no" none ∅, none⟩
  obtain ⟨w₁, r₁, w₂, r₂, w₃, r₃, begun, first, next, second, state, error, heard⟩ :
      ∃ w₁ r₁ w₂ r₂ w₃ r₃, start {} (fresh explosion ⟨"1", none⟩ "1") = .ok (w₁, r₁) ∧
        advance (explosive trouble) w₁ r₁ = some (w₂, r₂) ∧ r₂.next = 1 ∧
        advance (explosive trouble) w₂ r₂ = some (w₃, r₃) ∧ r₃.state = .failed ∧
        r₃.result.error.map ErrorRecord.kind = some (.fault .sinkRejected) ∧
        r₃.result.sinkResults ≠ [] :=
    ⟨_, _, _, _, _, _, rfl, rfl, rfl, rfl, rfl, rfl, List.cons_ne_nil _ _⟩
  refine ⟨trouble, w₂, r₂, w₃, r₃, ⟨.reported .sinkRejected "no" none ∅, some 1⟩,
    raises_exploding trouble {} {}, rfl, (fun blames => nomatch blames.kind),
    (Path.here.moved (.begins begun)).moved (.turns first), next, second, state, error, heard⟩

end Run

end TaintFlow
