import TaintFlow.Proofs.Isolation.Alone
import TaintFlow.Proofs.Run.Loop
import TaintFlow.Proofs.Run.Trace

/-!
# A run in company and the same run alone

The turns of a run alone come one after the other from the world that it starts
in.  In company the same run may also read the inputs of a merge ahead and call
several sinks one by one.  `Abreast` says that both have come equally far; they
stay abreast as long as nobody else touches the keys that the run names.
-/

namespace TaintFlow.Run

variable {network : Network} {view : Partition → String → Prop} {rely : World → World → Prop}
  {origin r s : Run} {w w' v v' : World} {r' : Run}

/-! ## Runs alone -/

/-- How far a run gets alone. -/
inductive Solo (network : Network) (w₀ : World) (origin : Run) : World → Run → Prop
  | begun {v : World} {s : Run} (begins : start w₀ origin = .ok (v, s)) :
      Solo network w₀ origin v s
  | turned {v v' : World} {s s' : Run} (before : Solo network w₀ origin v s)
      (turn : advance network v s = some (v', s')) : Solo network w₀ origin v' s'

/-- A run that has not been begun. -/
structure Idle (r : Run) : Prop where
  state : r.state = .pending
  gathered : r.gathered = []
  loaded : r.loaded = false
  calls : r.calls = []
  unclosed : r.result.finished = false

theorem idle_fresh (chain : Chain) (scopes : RunScopes) (runId : String) (context : Payload)
    (timeout : Option Timeout) : Idle (fresh chain scopes runId context timeout) :=
  ⟨rfl, rfl, rfl, rfl, rfl⟩

namespace Solo

variable {w₀ : World}

theorem course (alone : Solo network w₀ origin v s) :
    ∃ log, Course network rely origin log v s := by
  induction alone with
  | begun begins => exact ⟨_, .started begins⟩
  | turned before turn ih =>
      obtain ⟨log, way⟩ := ih
      exact ⟨_, way.turned turn⟩

/-- No sink of a step is called by itself. -/
theorem calls_eq_nil (idle : Idle origin) (alone : Solo network w₀ origin v s)
    (running : s.state = .running) : s.calls = [] := by
  induction alone with
  | begun begins =>
      obtain ⟨_, rfl⟩ := start_eq_ok begins
      exact idle.calls
  | turned before turn ih =>
      obtain ⟨before, deed⟩ := deed_of_advance turn
      rcases deed.passes_or_collects before running with passes | ⟨_, _, collects⟩
      · rcases passes.calls with nil | ⟨same, _⟩
        · exact nil
        · exact same.trans (ih before)
      · rw [collects.same]
        exact ih before

theorem loaded_eq_false (idle : Idle origin) (alone : Solo network w₀ origin v s)
    (running : s.state = .running) : s.loaded = false := by
  induction alone with
  | begun begins =>
      obtain ⟨_, rfl⟩ := start_eq_ok begins
      exact idle.loaded
  | turned before turn ih =>
      obtain ⟨before', deed⟩ := deed_of_advance turn
      obtain ⟨log, way⟩ : ∃ log, Course network (fun _ _ => False) origin log _ _ := before.course
      have gathers := way.gathers idle.gathered idle.loaded before'
      exact (deed.turnsLeft_lt before' gathers (ih before') running).2

theorem gathers (idle : Idle origin) (alone : Solo network w₀ origin v s)
    (running : s.state = .running) : Gathers network s := by
  obtain ⟨log, way⟩ : ∃ log, Course network (fun _ _ => False) origin log v s := alone.course
  exact way.gathers idle.gathered idle.loaded running

/-- A run that has as many turns as are left of it comes to where it cannot take another. -/
theorem stuck_takeTurns (idle : Idle origin) (alone : Solo network w₀ origin v s) (turns : Nat)
    (enough : s.state = .running → s.turnsLeft ≤ turns) :
    advance network (takeTurns network turns v s).1 (takeTurns network turns v s).2 = none := by
  induction turns generalizing v s with
  | zero =>
      cases turned : advance network v s with
      | none => exact turned
      | some after =>
          obtain ⟨running, step, here⟩ := running_of_advance turned
          have few := (alone.gathers idle running).length_le here
            (alone.loaded_eq_false idle running)
          have left := turnsOf_drop here
          have none_ := enough running
          rw [turnsLeft_eq] at none_
          omega
  | succ turns ih =>
      unfold takeTurns
      cases turned : advance network v s with
      | none => exact turned
      | some after =>
          obtain ⟨v', s'⟩ := after
          refine ih (alone.turned turned) fun running' => ?_
          obtain ⟨running, deed⟩ := deed_of_advance turned
          have fewer := (deed.turnsLeft_lt running (alone.gathers idle running)
            (alone.loaded_eq_false idle running) running').1
          have left := enough running
          omega

end Solo

theorem takeTurns_of_stuck (stuck : advance network w r = none) (turns : Nat) :
    takeTurns network turns w r = (w, r) := by
  cases turns with
  | zero => rfl
  | succ turns =>
      unfold takeTurns
      rw [stuck]

theorem takeTurns_add (network : Network) (turns more : Nat) (w : World) (r : Run) :
    takeTurns network (turns + more) w r =
      takeTurns network more (takeTurns network turns w r).1 (takeTurns network turns w r).2 := by
  induction turns generalizing w r with
  | zero => rw [Nat.zero_add, takeTurns]
  | succ turns ih =>
      rw [Nat.succ_add]
      cases turned : advance network w r with
      | none => rw [takeTurns_of_stuck turned, takeTurns_of_stuck turned,
          takeTurns_of_stuck turned]
      | some after =>
          obtain ⟨w', r'⟩ := after
          rw [takeTurns, takeTurns, turned]
          exact ih w' r'

namespace Solo

variable {w₀ : World}

theorem exists_takeTurns (alone : Solo network w₀ origin v s) :
    ∃ v₁ s₁ turns, start w₀ origin = .ok (v₁, s₁) ∧ takeTurns network turns v₁ s₁ = (v, s) := by
  induction alone with
  | begun begins => exact ⟨_, _, 0, begins, rfl⟩
  | turned before turn ih =>
      obtain ⟨v₁, s₁, turns, begins, taken⟩ := ih
      refine ⟨v₁, s₁, turns + 1, begins, ?_⟩
      rw [takeTurns_add, taken, takeTurns, turn]
      rfl

/-- A run without a break goes as far as the run gets alone. -/
theorem run_eq (idle : Idle origin) (alone : Solo network w₀ origin v s)
    (stuck : advance network v s = none) : run network w₀ origin = conclusion v s := by
  obtain ⟨v₁, s₁, turns, begins, taken⟩ := alone.exists_takeTurns
  have first : Solo network w₀ origin v₁ s₁ := .begun begins
  have last := first.stuck_takeTurns idle s₁.turnsLeft fun _ => Nat.le_refl _
  -- both numbers of turns lead to a place where no further turn can be taken
  have same : takeTurns network s₁.turnsLeft v₁ s₁ = (v, s) := by
    have both := takeTurns_add network turns s₁.turnsLeft v₁ s₁
    rw [Nat.add_comm, takeTurns_add, takeTurns_of_stuck last, taken, takeTurns_of_stuck stuck]
      at both
    exact both
  unfold run
  rw [begins]
  dsimp only
  rw [same]

end Solo

/-! ## Equally far -/

/-- A run in company has come as far as the same run alone, or has only read the inputs of a merge
ahead. -/
inductive Abreast (network : Network) (store : Store) (s r : Run) : Prop
  | level (same : r.uncalled = s.uncalled)
  | ahead {sources : List String} {loads : List StoreRef} {operator : String} {params : Params}
      {inputs : List Value} (running : s.state = .running)
      (here : s.chain.steps[s.next]? = some (.merge sources loads operator params))
      (asked : sources[s.gathered.length]? = none)
      (read : mergeInputs network store s loads = .ok (inputs, r))

theorem Abreast.kept {store : Store} (abreast : Abreast network store s r) :
    r.chain = s.chain ∧ r.scopes = s.scopes ∧ r.next = s.next ∧ r.state = s.state ∧
      r.stack = s.stack ∧ r.timeout = s.timeout := by
  cases abreast with
  | level same =>
      rw [eq_with_calls same]
      exact ⟨rfl, rfl, rfl, rfl, rfl, rfl⟩
  | ahead running here asked read =>
      rw [mergeInputs_run read]
      exact ⟨rfl, rfl, rfl, rfl, rfl, rfl⟩

/-- All calls of sinks have ended. -/
def Heard (r : Run) : Prop := ∀ call ∈ r.calls, (SinkCall.outcome? call).isSome = true

theorem sinkOutcomes_of_nil {value : Value} {sinks : List String} (nil : r.calls = []) :
    sinkOutcomes network w r value sinks = (callSinks network w r value sinks).1 := by
  unfold sinkOutcomes
  rw [nil]
  rfl

theorem fanout_of_nextSinks (some_ : r.nextSinks ≠ []) :
    ∃ sinks value, r.chain.steps[r.next]? = some (.fanout sinks) ∧ r.top? = some value ∧
      r.nextSinks = sinks := by
  unfold nextSinks at some_ ⊢
  split
  · rename_i sinks value here top
    exact ⟨sinks, value, here, top, rfl⟩
  · rename_i other
    exfalso
    split at some_
    · rename_i here top
      exact other _ _ here top
    · exact some_ rfl

/-- What sinks that have been called one by one have said, once all have answered. -/
theorem Heard.outcomes (heard : Heard r) :
    ∃ outcomes : List (Except Fault SinkResult),
      r.calls.map SinkCall.outcome? = outcomes.map some := by
  unfold Heard at heard
  generalize r.calls = calls at heard
  induction calls with
  | nil => exact ⟨[], rfl⟩
  | cons first rest ih =>
      obtain ⟨outcomes, same⟩ := ih fun call inside => heard call (List.mem_cons_of_mem _ inside)
      obtain ⟨outcome, said⟩ := Option.isSome_iff_exists.mp (heard first List.mem_cons_self)
      exact ⟨outcome :: outcomes, by rw [List.map_cons, List.map_cons, said, same]⟩

/-- Sinks that have all answered one by one have said what they say at once. -/
theorem sinkOutcomes_eq_of_heard {value : Value} {sinks : List String}
    (same : r.uncalled = s.uncalled) (nil : s.calls = [])
    (here : r.chain.steps[r.next]? = some (.fanout sinks)) (top : r.top? = some value)
    (forgetful : ∀ id ∈ sinks, ∀ s, network.sinks.find? id = some s → s.capability.Forgetful)
    (poised : Poised network r) (heard : Heard r) :
    sinkOutcomes network w r value.forward sinks = sinkOutcomes network v s value.forward sinks := by
  have timeout : r.timeout = s.timeout := by rw [eq_with_calls same]
  rw [sinkOutcomes_of_nil nil]
  by_cases quiet : r.calls = []
  · have alike : r = s := by
      have both := eq_with_calls same
      rw [quiet, ← nil] at both
      exact both
    rw [sinkOutcomes_of_nil quiet, alike]
    exact callSinks_congr forgetful (callSinks_answers network v s _ sinks).1 w
  · obtain ⟨outcomes, said⟩ := heard.outcomes
    have all : sinkOutcomes network w r value.forward sinks = outcomes.map some := by
      unfold sinkOutcomes
      rw [if_neg fun empty => quiet (List.isEmpty_iff.mp empty)]
      exact said
    have answers := poised.answers here top all
    rw [timeout] at answers
    rw [all, callSinks_congr forgetful answers]

/-- Runs that are abreast are about to take the same turn, once all sinks that have been called one
by one have answered. -/
theorem Abreast.runStep_eq {step : Step} (abreast : Abreast network v.store s r)
    (nil : s.calls = []) (here : s.chain.steps[s.next]? = some step)
    (stateless : step.Stateless network) (sameReads : SameReads s w.store v.store step.reads)
    (poised : Poised network r) (heard : Heard r) :
    (runStep network w r step).2 = (runStep network v s step).2 := by
  obtain ⟨chain, _, next, _, _, _⟩ := abreast.kept
  cases abreast with
  | level same =>
      by_cases quiet : r.nextSinks = []
      · have alike : r = s := by
          have both := eq_with_calls same
          rw [poised.calls_eq_nil quiet, ← nil] at both
          exact both
        rw [alike]
        exact runStep_congr stateless sameReads
      · obtain ⟨sinks, value, here', top, _⟩ := fanout_of_nextSinks quiet
        rw [chain, next] at here'
        obtain rfl := Option.some.inj (here.symm.trans here')
        rw [← chain, ← next] at here'
        exact runFanout_congr same top
          (sinkOutcomes_eq_of_heard same nil here' top stateless.sinks poised heard)
  | @ahead sources loads operator params inputs running here' asked read =>
      obtain rfl := Option.some.inj (here.symm.trans here')
      obtain ⟨found, gathered, _, _, _, after⟩ := mergeInputs_eq_ok read
      have asked' : sources[r.gathered.length]? = none := by
        rw [after]
        show sources[inputs.length]? = none
        rw [gathered, List.length_append]
        have all := List.getElem?_eq_none_iff.mp asked
        exact List.getElem?_eq_none (Nat.le_trans all (Nat.le_add_right _ _))
      have done : ∀ store, mergeInputs network store r loads = .ok (inputs, r) := by
        intro store
        unfold mergeInputs
        rw [after]
        rfl
      show (runMerge network w r _ sources loads operator params).2 =
        (runMerge network v s _ sources loads operator params).2
      unfold runMerge
      rw [asked, asked']
      dsimp only
      rw [runMergeEnd_congr (stateless.operator operator rfl) ((done w.store).trans (done v.store).symm)]
      unfold runMergeEnd
      rw [done, read]

/-- The run after a turn depends on the run before only by the step that is next. -/
theorem afterTurn_run_of_next {step : Step} {turn : Turn} (next : r.next = s.next) (w v : World) :
    (afterTurn step r w turn).map Prod.snd = (afterTurn step s v turn).map Prod.snd := by
  cases turn with
  | stalled => rfl
  | partly after => rfl
  | failed after fault => rfl
  | crashed after mishap => rfl
  | passed after shown =>
      unfold afterTurn
      rw [next]
      rfl

/-- What two runs that are abreast make of a turn. -/
theorem Abreast.advance_run (abreast : Abreast network v.store s r)
    (nil : s.state = .running → s.calls = []) (stateless : s.chain.Stateless network)
    (sees : Sees s.chain s.scopes view) (agree : Store.Agree view w.store v.store)
    (poised : r.state = .running → Poised network r) (heard : Heard r) :
    (advance network w r).map Prod.snd = (advance network v s).map Prod.snd := by
  obtain ⟨chain, _, next, state, _, _⟩ := abreast.kept
  unfold advance
  rw [chain, next, state]
  by_cases running : s.state = .running
  · rw [if_pos running, if_pos running]
    cases here : s.chain.steps[s.next]? with
    | none => rfl
    | some step =>
        dsimp only
        have same := abreast.runStep_eq (nil running) here
          (stateless step (List.mem_of_getElem? here)) (sees.sameReads agree here)
          (poised (state.trans running)) heard
        rw [same]
        exact afterTurn_run_of_next next _ _
  · rw [if_neg running, if_neg running]

theorem heard_of_nil (nil : r.calls = []) : Heard r := by
  intro call inside
  rw [nil] at inside
  exact absurd inside List.not_mem_nil

theorem heard_of_advance (poised : Poised network r)
    (turned : advance network w r = some (w', r')) : Heard r := by
  by_cases quiet : r.calls = []
  · exact heard_of_nil quiet
  · have some_ : r.nextSinks ≠ [] := fun none_ => quiet (poised.calls_eq_nil none_)
    obtain ⟨sinks, value, here, top, _⟩ := fanout_of_nextSinks some_
    obtain ⟨outcomes, all⟩ := exists_outcomes_of_advance here top turned
    unfold sinkOutcomes at all
    rw [if_neg fun empty => quiet (List.isEmpty_iff.mp empty)] at all
    intro call inside
    have there : SinkCall.outcome? call ∈ outcomes.map some := by
      rw [← all]
      exact List.mem_map_of_mem inside
    obtain ⟨outcome, _, same⟩ := List.mem_map.mp there
    rw [← same]
    rfl

/-- In company a run takes the turns that it takes alone. -/
theorem Abreast.turn (abreast : Abreast network v.store s r)
    (nil : s.state = .running → s.calls = []) (stateless : s.chain.Stateless network)
    (sees : Sees s.chain s.scopes view) (agree : Store.Agree view w.store v.store)
    (poised : r.state = .running → Poised network r)
    (turned : advance network w r = some (w', r')) :
    ∃ v', advance network v s = some (v', r') ∧ Store.Agree view w'.store v'.store := by
  obtain ⟨chain, scopes, next, state, stack, _⟩ := abreast.kept
  have heard := heard_of_advance (poised (running_of_advance turned).1) turned
  have same := abreast.advance_run nil stateless sees agree poised heard
  rw [turned] at same
  obtain ⟨⟨v', s'⟩, turned', same⟩ := Option.map_eq_some_iff.mp same.symm
  obtain rfl : s' = r' := same
  refine ⟨v', turned', ?_⟩
  have edits : r.turnEdits = s.turnEdits := by
    have edits : r.edits = s.edits := by
      funext step
      unfold Run.edits top?
      rw [stack, scopes]
    unfold turnEdits
    rw [chain, next, edits]
  have untouching : Untouching network.engine r.chain := chain ▸ stateless.untouching
  rw [advance_store untouching turned, advance_store stateless.untouching turned', edits]
  exact agree.applyAll _

/-- No call of a sink that has not ended will. -/
def Silent (network : Network) (w : World) (r : Run) : Prop :=
  ∀ (position : Nat) (id : String) (value : Value) (call : SinkCall),
    r.nextSinks[position]? = some id → r.top? = some value → r.calls[position]? = some call →
      SinkCall.outcome? call = none →
        (w.callSink network r.location id value.forward r.timeout).1 = none

/-- A sink that answers a run alone answers it in company. -/
theorem Abreast.heard {s' : Run} (abreast : Abreast network v.store s r)
    (nil : s.calls = []) (stateless : s.chain.Stateless network) (poised : Poised network r)
    (silent : Silent network w r) (turned : advance network v s = some (v', s')) : Heard r := by
  obtain ⟨chain, _, next, _, stack, timeout⟩ := abreast.kept
  by_cases quiet : r.calls = []
  · exact heard_of_nil quiet
  · have some_ : r.nextSinks ≠ [] := fun none_ => quiet (poised.calls_eq_nil none_)
    obtain ⟨sinks, value, here, top, named⟩ := fanout_of_nextSinks some_
    have all : List.Forall₂ (fun _ _ => True) sinks r.calls := by
      rcases poised with none_ | ⟨_, _, answers⟩
      · exact absurd none_ quiet
      · rw [named] at answers
        exact answers.imp fun _ _ _ => trivial
    rw [chain, next] at here
    have top' : s.top? = some value := by
      unfold top? at top ⊢
      rw [← stack, top]
    obtain ⟨outcomes, said⟩ := exists_outcomes_of_advance here top' turned
    have answers := (callSinks_answers network v s value.forward sinks).1
    rw [← sinkOutcomes_of_nil nil, said] at answers
    intro call inside
    cases open_ : SinkCall.outcome? call with
    | some outcome => rfl
    | none =>
        obtain ⟨position, less, rfl⟩ := List.mem_iff_getElem.mp inside
        have less' : position < sinks.length := all.length_eq ▸ less
        have at_ : r.nextSinks[position]? = some sinks[position] := by
          rw [named]
          exact List.getElem?_eq_getElem less'
        have mute := silent position _ value _ at_ top (List.getElem?_eq_getElem less) open_
        obtain ⟨v₁, at₁, answer⟩ := answers.get less' (answers.length_eq ▸ less')
        have forgetful := (stateless _ (List.mem_of_getElem? here)).sinks sinks[position]
          (List.getElem_mem less')
        have same := World.callSink_congr forgetful v₁ w at₁ r.location value.forward s.timeout
        rw [List.get_eq_getElem, List.get_eq_getElem, List.getElem_map] at answer
        rw [timeout] at mute
        exact nomatch answer.symm.trans (same.trans mute)

/-- A run that cannot go on in company cannot go on alone. -/
theorem Abreast.stuck (abreast : Abreast network v.store s r)
    (nil : s.state = .running → s.calls = []) (stateless : s.chain.Stateless network)
    (sees : Sees s.chain s.scopes view) (agree : Store.Agree view w.store v.store)
    (poised : r.state = .running → Poised network r) (stuck : advance network w r = none)
    (silent : Silent network w r) : advance network v s = none := by
  obtain ⟨_, _, _, state, _, _⟩ := abreast.kept
  cases turned : advance network v s with
  | none => rfl
  | some after =>
      have running := (running_of_advance turned).1
      have heard := abreast.heard (nil running) stateless (poised (state.trans running)) silent
        turned
      have same := abreast.advance_run nil stateless sees agree poised heard
      rw [stuck, turned] at same
      exact nomatch same

end TaintFlow.Run
