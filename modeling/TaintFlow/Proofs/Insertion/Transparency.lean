import TaintFlow.Proofs.Insertion.Stepping
import TaintFlow.Proofs.Harness.Refusal
import TaintFlow.Proofs.Run.Coverage
import TaintFlow.Proofs.Run.Effect

/-!
# Inserted steps change nothing else

A store to a key that a chain does not name, or a fan-out to sinks that accept everything
and that the chain does not need, can be inserted anywhere between its first step and its
last: the chain is still accepted, and its runs come to the same: `insertion_transparent`.

A run of the chain takes a turn for each turn of a run of the other, and one more when
the inserted step is due.
-/

namespace TaintFlow

/-!
## Steps that nobody notices

A store to a request or process key, and a fan-out to sinks that accept everything,
hand on what they are given: such a step can stand wherever there is an active value,
and the turn in which an inserted one is taken leaves the run where it is beside the
run without it.
-/

open World

/-! ### What such a step is -/

/-- A registered sink that takes every payload in time, whatever it was handed before. -/
def Network.Accepts (network : Network) (timeout : Option Timeout) (id : String) : Prop :=
  ∃ s, network.sinks.find? id = some s ∧ ∀ history argument, ∃ raw,
    s.capability.callEnd history argument (timeoutOf network timeout s.timeout) = .returned raw

/-- A step that only hands on: it stores the active value at a request or process key, or hands it
to sinks that accept everything. -/
inductive Step.Unobtrusive (network : Network) (timeout : Option Timeout) : Step → Prop
  | store {target : StoreRef} (scope : target.scope ≠ .session) :
      Unobtrusive network timeout (.store target)
  | fanout {sinks : List String} (accepts : ∀ id ∈ sinks, network.Accepts timeout id) :
      Unobtrusive network timeout (.fanout sinks)

/-- Such a step can stand wherever there is an active value. -/
theorem Step.Unobtrusive.keeps {network : Network} {timeout : Option Timeout} {x : Step}
    (unobtrusive : x.Unobtrusive network timeout) : Chain.Keeps network x := by
  intro depth some_
  cases unobtrusive with
  | store scope => exact ⟨some_, rfl⟩
  | fanout accepts =>
      refine ⟨some_, fun id inside => ?_, rfl⟩
      obtain ⟨s, found, _⟩ := accepts id inside
      exact Assoc.has_of_find? found

/-! ### Sinks that accept everything -/

namespace World

variable {network : Network}

theorem callSink_of_accepts {timeout : Option Timeout} {id : String}
    (accepts : network.Accepts timeout id) (w : World) (at_ : Location) (value : Value) :
    ∃ result, (w.callSink network at_ id value timeout).1 = some (.ok result) := by
  obtain ⟨s, found, returns⟩ := accepts
  obtain ⟨raw, returned⟩ := returns (w.callsOf (.sink id)) value.payload
  unfold callSink Sinks.get
  rw [found]
  dsimp only [callCapability]
  rw [returned]
  exact ⟨_, rfl⟩

/-- A call of a sink is the last that the sink has had. -/
theorem callsOf_callSink (w : World) (network : Network) (at_ : Location) (id : String)
    (value : Value) (given : Option Timeout) (owner : Owner) :
    ∃ more, (w.callSink network at_ id value given).2.callsOf owner = w.callsOf owner ++ more ∧
      (owner ≠ .sink id → more = []) := by
  unfold callSink
  cases network.sinks.get id with
  | error fault => exact ⟨[], (List.append_nil _).symm, fun _ => rfl⟩
  | ok s =>
      obtain ⟨more, appended⟩ := Beside.exists_historyAfter s.capability value.payload
        (timeoutOf network given s.timeout)
      have called : ∃ more, (w.callCapability (.sink id) s.capability value.payload
          (timeoutOf network given s.timeout)).2.callsOf owner = w.callsOf owner ++ more ∧
            (owner ≠ .sink id → more = []) := by
        unfold callCapability
        dsimp only
        rw [callsOf_put]
        by_cases same : owner = .sink id
        · exact ⟨more, by rw [if_pos same, appended, same], fun other => absurd same other⟩
        · exact ⟨[], by rw [if_neg same, List.append_nil], fun _ => rfl⟩
      dsimp only [callCapability] at called ⊢
      split <;> exact called

end World

namespace Run

variable {network : Network} {r : Run} {value : Value} {sinks : List String}

theorem foldl_callNext_calls (before : List WholeCall × World) (owner : Owner) :
    ∃ more, (sinks.foldl (callNext network r value) before).2.callsOf owner =
        before.2.callsOf owner ++ more ∧ ((∀ id ∈ sinks, owner ≠ .sink id) → more = []) := by
  induction sinks generalizing before with
  | nil => exact ⟨[], (List.append_nil _).symm, fun _ => rfl⟩
  | cons id rest ih =>
      obtain ⟨first, called, none⟩ := callsOf_callSink { before.2 with notices := [] } network
        r.location id value r.timeout owner
      obtain ⟨more, later, none'⟩ := ih (callNext network r value before id)
      refine ⟨first ++ more, ?_, fun other => ?_⟩
      · rw [List.foldl_cons, later, ← List.append_assoc]
        exact congrArg (· ++ more) called
      · rw [none (other id List.mem_cons_self),
          none' fun one inRest => other one (List.mem_cons_of_mem _ inRest)]
        rfl

/-- Sinks that accept everything all accept, and only they are called. -/
theorem callSinks_of_accepts (accepts : ∀ id ∈ sinks, network.Accepts r.timeout id) (w : World)
    (value : Value) :
    ∃ results : List SinkResult,
      (callSinks network w r value sinks).1 = (results.map Except.ok).map some ∧
      (callSinks network w r value sinks).2.store = w.store ∧
      ∀ owner, ∃ more, (callSinks network w r value sinks).2.callsOf owner =
        w.callsOf owner ++ more ∧ ((∀ id ∈ sinks, owner ≠ .sink id) → more = []) := by
  obtain ⟨answers, store⟩ := callSinks_answers network w r value sinks
  have called : ∀ owner, ∃ more, (callSinks network w r value sinks).2.callsOf owner =
      w.callsOf owner ++ more ∧ ((∀ id ∈ sinks, owner ≠ .sink id) → more = []) :=
    fun owner => foldl_callNext_calls ([], w) owner
  generalize (callSinks network w r value sinks).1 = outcomes at answers
  suffices ∃ results : List SinkResult, outcomes = (results.map Except.ok).map some by
    obtain ⟨results, same⟩ := this
    exact ⟨results, same, store, called⟩
  clear store called
  induction answers with
  | nil => exact ⟨[], rfl⟩
  | cons answer rest ih =>
      obtain ⟨w₁, at_, said⟩ := answer
      obtain ⟨result, accepted⟩ := callSink_of_accepts (accepts _ List.mem_cons_self) w₁ at_ value
      obtain ⟨results, same⟩ := ih fun id inRest => accepts id (List.mem_cons_of_mem _ inRest)
      exact ⟨result :: results, by rw [← said, accepted, same]; rfl⟩

theorem gatherSinks_of_ok (results : List SinkResult) :
    gatherSinks (results.map Except.ok) = .ok (results, none) := by
  induction results with
  | nil => rfl
  | cons result rest ih =>
      rw [List.map_cons, gatherSinks_ok_cons, ih]
      rfl

/-! ### The turn of an inserted step -/

section

variable {c c' : Chain} {k : Nat} {x : Step} {scopes : RunScopes} {own : Run} {w w' : World}

theorem partition_of_named (named : scopes.execution ≠ "") {scope : Scope}
    (other : scope ≠ .session) : ∃ p, scope.partition (scopes.idFor scope) = .ok p := by
  cases scope with
  | process => exact ⟨_, rfl⟩
  | session => exact absurd rfl other
  | request =>
      refine ⟨⟨.request, scopes.execution⟩, ?_⟩
      show Scope.request.partition (some scopes.execution) = _
      unfold Scope.partition
      exact if_neg named

variable (inserted : c.Inserted c' k x) (running : r.state = .running) (next : r.next = k)
  (next' : own.next = k) (akin : Akin c c' k x scopes r own)
include inserted running next next' akin

/-- A step that passes without a verdict moves on a run that stays beside the other one. -/
theorem advance_inserted {own₁ : Run} {w₁ : World} {shown : StepTrace}
    (turn : runStep network w' (r.beside own) x = (w₁, .passed (r.beside own₁) shown))
    (stays : own₁.next = k) (index : shown.index = k) (akin₁ : Akin c c' k x scopes r own₁) :
    ∃ own₂, advance network w' (r.beside own) =
        some (w₁.count (.steps x.kind), r.beside own₂) ∧ Level c c' k x scopes r own₂ := by
  have running' : (r.beside own).state = .running := running
  have here : (r.beside own).chain.steps[(r.beside own).next]? = some x := by
    show own.chain.steps[own.next]? = _
    rw [akin.chain', next', inserted.getElem?_self]
  have notEnd : ¬ own₁.chain.steps.length ≤ own₁.next + 1 := by
    have before := inserted.beforeLast
    rw [akin₁.chain', inserted.length_eq, stays]
    omega
  have onward : (r.beside own₁).passOn shown =
      r.beside { own₁.record shown with next := own₁.next + 1 } := by
    rw [passOn_eq_exhaust]
    exact exhaust_of_not_end _ fun both => notEnd both.2
  have kept : (own₁.result.trace ++ [shown]).filter (fun shown => shown.index ≠ k) =
      own₁.result.trace.filter fun shown => shown.index ≠ k := by
    rw [List.filter_append, List.filter_cons, if_neg (by simp [index]), List.filter_nil,
      List.append_nil]
  refine ⟨{ own₁.record shown with next := own₁.next + 1 }, ?_,
    ⟨akin₁.chain, akin₁.chain', akin₁.scopes, akin₁.written, ?_, akin₁.error⟩, ?_⟩
  · have still : (r.beside own₁).next = (r.beside own).next := stays.trans next'.symm
    have goesOn : (r.beside own₁).state = .running := running
    rw [advance_eq running' here, turn, afterTurn_passed goesOn still, onward]
  · show List.Forall₂ _ r.result.trace ((own₁.result.trace ++ [shown]).filter _)
    rw [kept]
    exact akin₁.trace
  · show own₁.next + 1 = _
    rw [stays, next, Chain.shifted_of_le (Nat.le_refl k)]

/-- An inserted store writes to a key of its own. -/
theorem advance_inserted_store {target : StoreRef} (same : x = .store target)
    (scope : target.scope ≠ .session) (named : scopes.execution ≠ "")
    (top : r.top? = some value) (beside_ : World.Beside [] (x.Leaves scopes) w w') :
    ∃ w₁ own₁, advance network w' (r.beside own) = some (w₁, r.beside own₁) ∧
      Level c c' k x scopes r own₁ ∧ World.Beside x.sinks (x.Leaves scopes) w w₁ := by
  subst same
  obtain ⟨p, place⟩ := partition_of_named named scope
  have there : target.scope.partition ((r.beside own).scopes.idFor target.scope) = .ok p :=
    akin.scopes ▸ place
  have top' : (r.beside own).top? = some value := top
  let stored := w'.edit (r.beside own).location
    (.put p target.key value.forward value.forward.hops)
  let shown : StepTrace :=
    { index := own.next, step := .store target, labels := value.forward.labels
      hops := value.forward.hops, outcome := .preserved }
  have turn : runStep network w' (r.beside own) (.store target) =
      (stored, .passed (r.beside (own.noted target value.forward.labels)) shown) := by
    show runStore w' (r.beside own) (.store target) target = _
    unfold runStore
    rw [top']
    dsimp only
    rw [there]
    rfl
  have noted : Akin c c' k (.store target) scopes r (own.noted target value.forward.labels) := by
    refine ⟨akin.chain, akin.chain', akin.scopes, fun ref other => ?_, akin.trace, akin.error⟩
    have differs : ref ≠ target := fun same => other (same ▸ List.mem_cons_self)
    show (own.written.put target value.forward.labels).find? ref = _
    rw [Assoc.find?_put_of_ne differs]
    exact akin.written ref other
  obtain ⟨own₁, turned, level⟩ :=
    advance_inserted inserted running next next' akin turn next' next' noted
  refine ⟨_, own₁, turned, level, fun q key leaves => ?_, fun owner => ?_⟩
  · have elsewhere : q ≠ p ∨ key ≠ target.key := by
      by_contra both
      obtain ⟨rfl, rfl⟩ := not_or.mp both |>.imp Classical.not_not.mp Classical.not_not.mp
      exact leaves target List.mem_cons_self ⟨place, rfl⟩
    rw [beside_.store q key leaves, World.count_store, World.edit_store]
    exact (Store.slot?_write_of_ne _ elsewhere _ _).symm
  · have calls : (stored.count (.steps (Step.store target).kind)).calls = w'.calls :=
      World.edit_calls w' (r.beside own).location
        (.put p target.key value.forward value.forward.hops)
    rw [World.callsOf_of_calls calls]
    exact beside_.calls owner

/-- An inserted fan-out calls sinks that accept what they are handed. -/
theorem advance_inserted_fanout (same : x = .fanout sinks)
    (accepts : ∀ id ∈ sinks, network.Accepts r.timeout id) (calls : r.calls = [])
    (top : r.top? = some value) (beside_ : World.Beside [] (x.Leaves scopes) w w') :
    ∃ w₁ own₁, advance network w' (r.beside own) = some (w₁, r.beside own₁) ∧
      Level c c' k x scopes r own₁ ∧ World.Beside x.sinks (x.Leaves scopes) w w₁ := by
  subst same
  have top' : (r.beside own).top? = some value := top
  have uncalled : { r.beside own with calls := [] } = r.beside own :=
    congrArg (fun calls => { r.beside own with calls := calls }) calls.symm
  have notLast : (r.beside own).atLast = false := by
    have before := inserted.beforeLast
    have last := c'.length_eq
    have length := inserted.length_eq
    refine decide_eq_false fun same => ?_
    rw [show (r.beside own).next = own.next from rfl, next',
      show (r.beside own).chain = own.chain from rfl, akin.chain'] at same
    omega
  obtain ⟨results, accepted, store, called⟩ :=
    callSinks_of_accepts (r := r.beside own) accepts w' value.forward
  let w₁ := (callSinks network w' (r.beside own) value.forward sinks).2
  let shown : StepTrace :=
    { index := own.next, step := .fanout sinks, labels := value.forward.labels
      hops := value.forward.hops, outcome := .preserved, sinkResults := results }
  have heard : (r.beside own).heardAll network sinks results = r.beside (own.heard results) := by
    unfold heardAll
    rw [uncalled]
    exact if_neg (Bool.eq_false_iff.mp notLast)
  have turn : runStep network w' (r.beside own) (.fanout sinks) =
      (w₁, .passed (r.beside (own.heard results)) shown) := by
    have none : (r.beside own).calls.isEmpty = true := List.isEmpty_iff.mpr calls
    have all : ((results.map Except.ok : List (Except Fault SinkResult)).map some).mapM id =
        some (results.map Except.ok) := by
      rw [List.mapM_map]
      exact (List.mapM_pure).trans (congrArg some (List.map_id _))
    show runFanout network w' (r.beside own) (.fanout sinks) sinks = _
    rw [runFanout_eq, top']
    dsimp only
    rw [none, if_pos rfl, accepted, all]
    dsimp only
    rw [gatherSinks_of_ok]
    dsimp only
    rw [heard]
    exact if_neg (Bool.eq_false_iff.mp notLast)
  obtain ⟨own₁, turned, level⟩ := advance_inserted inserted running next next' akin turn next' next'
    ⟨akin.chain, akin.chain', akin.scopes, akin.written, akin.trace, akin.error⟩
  refine ⟨_, own₁, turned, level, fun q key leaves => ?_, fun owner => ?_⟩
  · rw [beside_.store q key leaves, ← store]
    rfl
  · obtain ⟨before, own, after, calls, calls', none⟩ := beside_.calls owner
    obtain rfl := none fun _ inside => absurd inside List.not_mem_nil
    obtain ⟨more, later, none⟩ := called owner
    refine ⟨before ++ after, more, [], by rw [calls, List.append_nil], ?_, none⟩
    rw [List.append_nil]
    rw [List.append_nil] at calls'
    exact later.trans (congrArg (· ++ more) calls')

end

end Run

/-! ## Runs beside each other -/

theorem Chain.Separate.nothing_hidden {network : Network} {hidden : List String} {x : Step}
    {c : Chain} (separate : Separate network hidden x c) : Separate network [] x c where
  operators := separate.operators
  keys := separate.keys
  sinks _ _ inside := absurd inside List.not_mem_nil

theorem World.Beside.hide {hidden : List String} {view : Partition → String → Prop} {w w' : World}
    (beside : Beside [] view w w') : Beside hidden view w w' where
  store := beside.store
  calls owner := by
    obtain ⟨before, own, after, calls, calls', none⟩ := beside.calls owner
    exact ⟨before, own, after, calls, calls', fun _ =>
      none fun _ inside => absurd inside List.not_mem_nil⟩

namespace Run

variable {network : Network} {c c' : Chain} {k : Nat} {x : Step} {scopes : RunScopes}
  {w₀ v v' : World} {s own : Run} {context : Payload} {timeout : Option Timeout}
  {runId runId' : String}

/-! ### Alone -/

/-- The number of active values of a run alone. -/
theorem Solo.depthBefore_eq (alone : Solo network w₀ (fresh c scopes runId context timeout) v s)
    (running : s.state = .running) :
    Chain.depthBefore network s.chain s.next = some s.stack.length := by
  obtain ⟨log, way⟩ : ∃ log, Course network (fun _ _ => False) _ log v s := alone.course
  exact way.depthBefore_eq rfl rfl rfl rfl rfl running

theorem Solo.next_le {v₁ : World} {s₁ : Run} (turn : advance network v s = some (v₁, s₁)) :
    s.next ≤ s₁.next := by
  have move : Move network v s v₁ s₁ := .turns turn
  rcases move.stack_eq_or_next_lt with ⟨same, _⟩ | less
  · exact Nat.le_of_eq same.symm
  · exact Nat.le_of_lt less

/-- A run of the chain with the inserted step stands beside a run of the other; as long as the step
is still to come, no call has been made in only one of them. -/
structure Along (c c' : Chain) (k : Nat) (x : Step) (scopes : RunScopes) (v : World) (s : Run)
    (v' : World) (own : Run) : Prop where
  level : Level c c' k x scopes s own
  beside : World.Beside x.sinks (x.Leaves scopes) v v'
  before : s.next < k → World.Beside [] (x.Leaves scopes) v v'

section

variable (inserted : c.Inserted c' k x) (unobtrusive : x.Unobtrusive network timeout)
  (separate : Chain.Separate network x.sinks x c) (named : scopes.execution ≠ "")

include inserted unobtrusive named

/-- The turn of the inserted step, when it is due. -/
theorem Solo.passes_inserted
    (alone : Solo network w₀ (fresh c scopes runId context timeout) v s)
    (akin : Akin c c' k x scopes s own) (next : s.next = k) (next' : own.next = k)
    (going : s.state.isTerminal = false) (beside : World.Beside [] (x.Leaves scopes) v v') :
    ∃ v₁ own₁, advance network v' (s.beside own) = some (v₁, s.beside own₁) ∧
      Along c c' k x scopes v s v₁ own₁ := by
  obtain ⟨log, way⟩ : ∃ log, Course network (fun _ _ => False) _ log v s := alone.course
  have running : s.state = .running := by
    cases state : s.state with
    | running => rfl
    | pending => exact absurd state way.state_ne_pending
    | completed | broken | failed =>
        rw [state] at going
        cases going
  have idle := idle_fresh c scopes runId context timeout
  have some_ : 1 ≤ s.stack.length := by
    have depth := alone.depthBefore_eq running
    rw [akin.chain, next] at depth
    exact Chain.pos_of_depthBefore inserted.afterFirst depth
  obtain ⟨value, top⟩ := exists_top some_
  have past : ∀ {v₁ own₁}, Level c c' k x scopes s own₁ →
      World.Beside x.sinks (x.Leaves scopes) v v₁ → Along c c' k x scopes v s v₁ own₁ :=
    fun level after => ⟨level, after, fun before => absurd (next ▸ before) (Nat.lt_irrefl k)⟩
  cases unobtrusive with
  | store scope =>
      obtain ⟨v₁, own₁, turned, level, after⟩ := advance_inserted_store
        inserted running next next' akin rfl scope named top beside
      exact ⟨v₁, own₁, turned, past level after⟩
  | fanout accepts =>
      have given : s.timeout = timeout := (alone.kept running).2
      rw [← given] at accepts
      obtain ⟨v₁, own₁, turned, level, after⟩ := advance_inserted_fanout inserted running next next'
        akin rfl accepts (alone.calls_eq_nil idle running) top beside
      exact ⟨v₁, own₁, turned, past level after⟩

omit unobtrusive named in
/-- The run beside takes a turn with the other one. -/
theorem Solo.turned_beside {hidden : List String} {origin' : Run} {v₁ : World} {s₁ : Run}
    (alone' : Solo network w₀ origin' v' (s.beside own)) (level : Level c c' k x scopes s own)
    (beside : World.Beside hidden (x.Leaves scopes) v v')
    (apart : Chain.Separate network hidden x c) (turn : advance network v s = some (v₁, s₁)) :
    ∃ v₁' own₁, Solo network w₀ origin' v₁' (s₁.beside own₁) ∧
      World.Beside hidden (x.Leaves scopes) v₁ v₁' ∧ Reached c c' k x scopes s₁ own₁ ∧
        own.next ≤ own₁.next := by
  have comes := advance_beside beside level inserted apart
  rw [turn] at comes
  generalize taken : advance network v' (s.beside own) = other at comes
  cases comes with
  | @somewhere _ other own₁ beside same reached =>
      obtain ⟨v₁', _⟩ := other
      obtain rfl := same
      have later : (s.beside own).next ≤ (s₁.beside own₁).next := Solo.next_le taken
      exact ⟨v₁', own₁, alone'.turned taken, beside, reached, later⟩

include separate

/-- Beside each run alone of the chain there is one of the chain with the inserted step. -/
theorem Solo.along (alone : Solo network w₀ (fresh c scopes runId context timeout) v s) :
    ∃ v' own, Solo network w₀ (fresh c' scopes runId' context timeout) v' (s.beside own) ∧
      Along c c' k x scopes v s v' own := by
  induction alone with
  | begun begins =>
      obtain ⟨rfl, rfl⟩ := Prod.mk.inj (Except.ok.inj begins)
      have begun : Solo network w₀ (fresh c' scopes runId' context timeout) _ _ := .begun rfl
      have together : World.Beside [] (x.Leaves scopes) w₀ w₀ := .refl [] _ w₀
      have hidden : World.Beside x.sinks (x.Leaves scopes) w₀ w₀ := .refl x.sinks _ w₀
      have level : Level c c' k x scopes
          { fresh c scopes runId context timeout with
            result := { (fresh c scopes runId context timeout).result with state := .running } }
          (fresh c' scopes runId' context timeout) :=
        ⟨⟨rfl, rfl, rfl, fun _ _ => rfl, .nil, rfl⟩,
          (Chain.shifted_of_lt inserted.afterFirst).symm⟩
      exact ⟨_, fresh c' scopes runId' context timeout, begun, level,
        ⟨hidden.store, hidden.calls⟩, fun _ => ⟨together.store, together.calls⟩⟩
  | @turned v v₁ s s₁ before turn ih =>
      obtain ⟨v', own, alone', along⟩ := ih
      have alone : Solo network w₀ (fresh c scopes runId context timeout) v₁ s₁ :=
        .turned before turn
      -- what has been called in only one of the runs depends on whether the step has had its turn
      by_cases ahead : s.next < k
      · obtain ⟨v₁', own₁, alone₁, beside, reached, _⟩ := alone'.turned_beside inserted along.level
          (along.before ahead) separate.nothing_hidden turn
        cases reached with
        | level level => exact ⟨v₁', own₁, alone₁, level, beside.hide, fun _ => beside⟩
        | due akin next next' going =>
            obtain ⟨v₂, own₂, taken, along⟩ := alone.passes_inserted inserted unobtrusive named
              akin next next' going beside
            exact ⟨v₂, own₂, alone₁.turned taken, along⟩
      · obtain ⟨v₁', own₁, alone₁, beside, reached, later'⟩ := alone'.turned_beside inserted
          along.level along.beside separate turn
        have later := Solo.next_le turn
        cases reached with
        | level level => exact ⟨v₁', own₁, alone₁, level, beside, fun before => by omega⟩
        | due akin next next' going =>
            have at_ := along.level.next
            rw [Chain.shifted_of_le (Nat.le_of_not_lt ahead)] at at_
            omega

omit unobtrusive named in
/-- Where the run cannot take another turn, the run beside it cannot either. -/
theorem Along.stuck (along : Along c c' k x scopes v s v' own)
    (stuck : advance network v s = none) : advance network v' (s.beside own) = none := by
  have comes := advance_beside along.beside along.level inserted separate
  rw [stuck] at comes
  generalize advance network v' (s.beside own) = other at comes
  cases comes
  rfl

end

/-! ### Whole runs -/

/-- Two runs come to the same, but for what an inserted step writes down, writes to the store and
hands to its sinks. -/
structure Agrees (k : Nat) (x : Step) (w : World) (r : Run) (w' : World) (r' : Run) : Prop where
  state : r'.result.state = r.result.state
  trace : List.Forall₂ (StepTrace.Like k) r.result.trace
    (r'.result.trace.filter fun shown => shown.index ≠ k)
  final : r'.result.final = r.result.final
  categoryMatch : r'.result.categoryMatch = r.result.categoryMatch
  origins : r'.result.origins = r.result.origins
  error : r'.result.error.map ErrorRecord.unplaced = r.result.error.map ErrorRecord.unplaced
  delivered : ∀ id, ∃ before own after, w.callsOf (.sink id) = before ++ after ∧
    w'.callsOf (.sink id) = before ++ own ++ after ∧ (id ∉ x.sinks → own = [])
  store : Store.Agree (x.Leaves r.scopes) w.store w'.store

/-- To close a run changes no calls that have been made. -/
theorem close_calls {w w' : World} {r r' : Run} (closed : close w r = .ok (w', r')) :
    w'.calls = w.calls := by
  unfold close at closed
  obtain ⟨p, _, same⟩ := Except.bind_eq_ok.mp closed
  obtain ⟨rfl, -⟩ := Prod.mk.inj (Except.ok.inj same)
  exact World.edit_calls w ⟨some r.chain.id, none⟩ (.release p)

/-- Runs that stand beside each other when they have ended come to the same. -/
theorem Along.agrees {w w' : World} {r r' : Run} (along : Along c c' k x scopes v s v' own)
    (closed : close v s = .ok (w, r)) (closed' : close v' (s.beside own) = .ok (w', r')) :
    Agrees k x w r w' r' := by
  have calls := close_calls closed
  have calls' := close_calls closed'
  obtain ⟨rfl, store⟩ := close_store closed
  obtain ⟨rfl, store'⟩ := close_store closed'
  refine ⟨rfl, along.level.trace, rfl, rfl, rfl, along.level.error, fun id => ?_, ?_⟩
  · rw [World.callsOf_of_calls calls, World.callsOf_of_calls calls']
    obtain ⟨before, own, after, given, given', none⟩ := along.beside.calls (.sink id)
    exact ⟨before, own, after, given, given', fun foreign =>
      none fun one inside same => foreign (Owner.sink.inj same ▸ inside)⟩
  · show Store.Agree (x.Leaves s.scopes) w.store w'.store
    rw [store, store', show (s.beside own).scopes = s.scopes from rfl, along.level.scopes]
    exact along.beside.store.apply _

/-- A run without an id of its own does not come back. -/
theorem named_of_returned {w : World} {r : Run}
    (returned : run network w₀ (fresh c scopes runId context timeout) = .returned w r) :
    scopes.execution ≠ "" := by
  intro nameless
  obtain ⟨v, s, _, ⟨_, raised⟩ | ⟨stalled, _⟩⟩ :=
    raised_or_stalled network w₀ c nameless runId context timeout
  · cases raised.symm.trans returned
  · cases stalled.symm.trans returned

/-- Runs that stand beside each other come back together. -/
theorem Along.concludes (along : Along c c' k x scopes v s v' own) (named : scopes.execution ≠ "") :
    (∀ w r, conclusion v s = .returned w r →
      ∃ w' r', conclusion v' (s.beside own) = .returned w' r' ∧ Agrees k x w r w' r') ∧
    ∀ w' r', conclusion v' (s.beside own) = .returned w' r' →
      ∃ w r, conclusion v s = .returned w r ∧ Agrees k x w r w' r' := by
  have same : (s.beside own).state = s.state := rfl
  unfold conclusion
  rw [same]
  cases s.state.isTerminal with
  | false =>
      rw [if_neg Bool.false_ne_true, if_neg Bool.false_ne_true]
      exact ⟨fun _ _ stalled => (nomatch stalled), fun _ _ stalled => (nomatch stalled)⟩
  | true =>
      rw [if_pos rfl, if_pos rfl]
      have own_ : s.scopes.execution ≠ "" := by
        rw [along.level.scopes]
        exact named
      have own' : (s.beside own).scopes.execution ≠ "" := own_
      obtain ⟨w, closed, _⟩ := close_of_ne own_ v
      obtain ⟨w', closed', _⟩ := close_of_ne own' v'
      have agrees := along.agrees closed closed'
      rw [closed, closed']
      refine ⟨fun _ _ returned => ?_, fun _ _ returned => ?_⟩
      · obtain ⟨rfl, rfl⟩ := End.returned.inj returned
        exact ⟨_, _, rfl, agrees⟩
      · obtain ⟨rfl, rfl⟩ := End.returned.inj returned
        exact ⟨_, _, rfl, agrees⟩

/-- **Inserted steps change nothing else.**  Insert, after the first step of an accepted chain and
before the last, a store to a request or process key that the chain does not name, or a fan-out to
registered sinks that accept everything and that the chain does not call, unless they keep no
state; the operators of the chain keep away from the store.  The chain is accepted as before.  From
the same world, with the same context, a run of it comes back exactly if a run of the original
chain does, and both come to the same: to the same state, to the same labels, hops and outcomes at
the steps of the original chain, to the same calls of its sinks, and to the same result. -/
theorem insertion_transparent (inserted : c.Inserted c' k x) (valid : c.validate network = .ok ())
    (unobtrusive : x.Unobtrusive network timeout)
    (separate : Chain.Separate network x.sinks x c) :
    c'.validate network = .ok () ∧ ∀ w₀ scopes runId runId' context,
      let origin := fresh c scopes runId context timeout
      let origin' := fresh c' scopes runId' context timeout
      (∀ w r, run network w₀ origin = .returned w r →
        ∃ w' r', run network w₀ origin' = .returned w' r' ∧ Agrees k x w r w' r') ∧
      ∀ w' r', run network w₀ origin' = .returned w' r' →
        ∃ w r, run network w₀ origin = .returned w r ∧ Agrees k x w r w' r' := by
  refine ⟨inserted.validate unobtrusive.keeps valid, fun w₀ scopes runId runId' context => ?_⟩
  intro origin origin'
  obtain ⟨v, s, alone, stuck⟩ :=
    exists_stuck network w₀ (idle_fresh c scopes runId context timeout)
  have ran : run network w₀ origin = conclusion v s :=
    alone.run_eq (idle_fresh c scopes runId context timeout) stuck
  by_cases named : scopes.execution = ""
  · -- without an id of its own a run is never closed
    exact ⟨fun _ _ returned => absurd named (named_of_returned returned),
      fun _ _ returned => absurd named (named_of_returned returned)⟩
  · obtain ⟨v', own, alone', along⟩ : ∃ v' own, Solo network w₀ origin' v' (s.beside own) ∧
        Along c c' k x scopes v s v' own := alone.along inserted unobtrusive separate named
    have ran' : run network w₀ origin' = conclusion v' (s.beside own) :=
      alone'.run_eq (idle_fresh c' scopes runId' context timeout)
        (along.stuck inserted separate stuck)
    rw [ran, ran']
    exact along.concludes named

/-- A source, an operator that hands its input on, a sink, and one that only watches. -/
def watching : Network :=
  { passage with
    sinks := ("watch", { id := "watch", categories := .singleton .log
                         capability := recording "watch" none }) :: passage.sinks }

/-- The chain that also hands to the watching sink what it hands on. -/
def watched : Chain where
  id := "watched"
  expected := .command
  steps := [.source "form", .relay "pass" [], .fanout ["watch"], .sink "shell"]
  steps_ne := nofun

/-- A chain that is watched is accepted, and its run is completed like that of the other. -/
theorem insertion_transparent_watched :
    watched.validate watching = .ok () ∧
      ∃ w r w' r', run watching {} (fresh throughPassage ⟨"1", none⟩ "1") = .returned w r ∧
        run watching {} (fresh watched ⟨"1", none⟩ "2") = .returned w' r' ∧
        r.result.state = .completed ∧ w'.callsOf (.sink "watch") ≠ [] ∧
        Agrees 2 (.fanout ["watch"]) w r w' r' := by
  have inserted : throughPassage.Inserted watched 2 (.fanout ["watch"]) :=
    ⟨rfl, rfl, by decide, by decide⟩
  have accepts : ∀ id ∈ ["watch"], watching.Accepts none id := by
    intro id inside
    obtain rfl := List.mem_singleton.mp inside
    exact ⟨_, rfl, fun _ _ => ⟨_, rfl⟩⟩
  have separate : Chain.Separate watching ["watch"] (.fanout ["watch"]) throughPassage := by
    refine ⟨?_, fun _ _ _ _ => List.not_mem_nil, ?_⟩
    · intro id inside operator found
      obtain rfl := List.mem_singleton.mp inside
      obtain rfl := Option.some.inj found
      exact fun _ _ _ => ⟨rfl, rfl⟩
    · intro id inside hidden
      obtain rfl := List.mem_singleton.mp inside
      exact absurd hidden (by decide)
  obtain ⟨valid, transparent⟩ :=
    insertion_transparent inserted rfl (.fanout accepts) separate
  obtain ⟨w, r, ran, completed⟩ : ∃ w r,
      run watching {} (fresh throughPassage ⟨"1", none⟩ "1") = .returned w r ∧
        r.result.state = .completed := ⟨_, _, rfl, rfl⟩
  obtain ⟨w₁, r₁, ran₁, called⟩ : ∃ w' r',
      run watching {} (fresh watched ⟨"1", none⟩ "2") = .returned w' r' ∧
        w'.callsOf (.sink "watch") ≠ [] := ⟨_, _, rfl, List.cons_ne_nil _ _⟩
  obtain ⟨w', r', ran', agrees⟩ := (transparent {} ⟨"1", none⟩ "1" "2" .null).1 w r ran
  obtain ⟨rfl, rfl⟩ := End.returned.inj (ran₁.symm.trans ran')
  exact ⟨valid, w, r, w₁, r₁, ran, ran₁, completed, called, agrees⟩

end Run

end TaintFlow
