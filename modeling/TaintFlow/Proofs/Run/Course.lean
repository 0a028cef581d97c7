import TaintFlow.Proofs.Run.Handlers

/-!
# The course of a run

A run takes its turns while others change the world.  Its course is everything
that happens from its start on, with the events so far, the world and the run as
they are now.  A run that waits may have read the stored inputs of a merge or
may have called some of several sinks before its turn is done.

`rely` says what the others may do to the world meanwhile.  What is proved of a
course under every `rely` holds however runs are interleaved and whatever is
done to the store between two turns.
-/

namespace TaintFlow.Run

/-- What happens in a run from its start on. -/
inductive Course (network : Network) (rely : World → World → Prop) (origin : Run) :
    List Event → World → Run → Prop
  /-- The run has been started. -/
  | started {w w' : World} {r : Run} (begun : start w origin = .ok (w', r)) :
      Course network rely origin [] w' r
  /-- The run has taken a turn. -/
  | turned {log : List Event} {w w' : World} {r r' : Run}
      (before : Course network rely origin log w r)
      (turn : advance network w r = some (w', r')) :
      Course network rely origin (log ++ report network w r) w' r'
  /-- A merge has read its stored inputs before it waits for its operator. -/
  | readAhead {log : List Event} {w : World} {r r' : Run} {sources : List String}
      {loads : List StoreRef} {operator : String} {params : Params} {inputs : List Value}
      (before : Course network rely origin log w r)
      (running : r.state = .running)
      (here : r.chain.steps[r.next]? = some (.merge sources loads operator params))
      (asked : sources[r.gathered.length]? = none)
      (read : mergeInputs network w.store r loads = .ok (inputs, r')) :
      Course network rely origin (log ++ pendingReadings network w.store r loads) w r'
  /-- Several sinks are about to be called one by one. -/
  | summoned {log : List Event} {w : World} {r : Run}
      (before : Course network rely origin log w r)
      (running : r.state = .running) :
      Course network rely origin log w { r with calls := r.nextSinks.map fun _ => .due }
  /-- A call of one of them has begun to wait. -/
  | called {log : List Event} {w : World} {r : Run} (position : Nat)
      (before : Course network rely origin log w r)
      (running : r.state = .running) :
      Course network rely origin log w { r with calls := r.calls.set position .underway }
  /-- One of them has answered. -/
  | answered {log : List Event} {w w' : World} {r : Run} {position : Nat} {id : String}
      {value : Value} {outcome : Except Fault SinkResult}
      (before : Course network rely origin log w r)
      (running : r.state = .running)
      (named : r.nextSinks[position]? = some id)
      (top : r.top? = some value)
      (answer : w.callSink network r.location id value.forward r.timeout = (some outcome, w')) :
      Course network rely origin log w' { r with calls := r.calls.set position (.ended outcome) }
  /-- Others have done something. -/
  | waited {log : List Event} {w w' : World} {r : Run}
      (before : Course network rely origin log w r)
      (others : rely w w') :
      Course network rely origin log w' r

/-- A run comes back with a result. -/
def Returned (network : Network) (rely : World → World → Prop) (origin : Run) (log : List Event)
    (result : RunResult) : Prop :=
  ∃ w r w' r', Course network rely origin log w r ∧ r.state.isTerminal = true ∧
    close w r = .ok (w', r') ∧ r'.result = result

variable {network : Network} {rely : World → World → Prop} {origin : Run} {log : List Event}
  {w : World} {r : Run}

/-- A run that starts is pending, and is running then. -/
theorem start_eq_ok {w' : World} {r' : Run} (begun : start w r = .ok (w', r')) :
    r.state = .pending ∧ r' = { r with result := { r.result with state := .running } } := by
  unfold start at begun
  cases moved : r.state.moveTo .running with
  | error mishap => simp [moved, bind, Except.bind] at begun
  | ok state =>
      have may : r.state.allows .running = true ∧ RunState.running = state := by
        unfold RunState.moveTo at moved
        split at moved
        · rename_i may
          exact ⟨may, Except.ok.inj moved⟩
        · exact nomatch moved
      obtain ⟨may, rfl⟩ := may
      rw [moved] at begun
      obtain ⟨-, rfl⟩ := Prod.mk.inj (Except.ok.inj begun)
      refine ⟨?_, rfl⟩
      cases state : r.state with
      | pending => rfl
      | running => simp [state, RunState.allows, RunState.isTerminal] at may
      | completed => simp [state, RunState.allows] at may
      | broken => simp [state, RunState.allows] at may
      | failed => simp [state, RunState.allows] at may

/-- A run that is closed has an id of its own, and its result shows the labels that entered it. -/
theorem close_eq_ok {w' : World} {r' : Run} (closed : close w r = .ok (w', r')) :
    r.scopes.execution ≠ "" ∧
      r' = { r with result := { r.result with origins := r.origins, finished := true } } := by
  unfold close at closed
  cases place : Scope.request.partition (some r.scopes.execution) with
  | error mishap => simp [place, bind, Except.bind] at closed
  | ok p =>
      rw [place] at closed
      obtain ⟨-, rfl⟩ := Prod.mk.inj (Except.ok.inj closed)
      refine ⟨?_, rfl⟩
      intro empty
      simp [Scope.partition, empty] at place

theorem mergeInputs_run {store : Store} {r' : Run} {loads : List StoreRef} {inputs : List Value}
    (read : mergeInputs network store r loads = .ok (inputs, r')) :
    r' = { r.entered (entrants (pendingReadings network store r loads)) with
      gathered := inputs, loaded := true } := by
  obtain ⟨_, _, _, _, _, same⟩ := mergeInputs_eq_ok read
  exact same

/-- What is in a log when a step is next: a step was done exactly if it comes before that one, and
nothing has been handed to the sinks of that one. -/
structure Marked (log : List Event) (next : Nat) : Prop where
  passed : ∀ i, .passed i ∈ log ↔ i < next
  delivered : ∀ i value outcomes, .delivered i value outcomes ∈ log → i < next

namespace Marked

theorem nil : Marked [] 0 where
  passed i :=
    ⟨fun inside => absurd inside List.not_mem_nil, fun less => absurd less (Nat.not_lt_zero i)⟩
  delivered _ _ _ inside := absurd inside List.not_mem_nil

theorem passes {r' : Run} (marked : Marked log r.next)
    (passes : Passes network w r r') : Marked (log ++ report network w r) r'.next where
  passed i := by
    rw [passes.next, List.mem_append, marked.passed i]
    constructor
    · rintro (less | inReport)
      · omega
      · obtain ⟨rfl, _⟩ := passed_of_mem_report inReport
        omega
    · intro less
      rcases Nat.lt_succ_iff_lt_or_eq.mp less with less | rfl
      · exact .inl less
      · exact .inr passes.passed
  delivered i value outcomes inside := by
    rw [passes.next]
    rcases List.mem_append.mp inside with inLog | inReport
    · have := marked.delivered i value outcomes inLog
      omega
    · obtain ⟨rfl, _⟩ := delivered_of_mem_report inReport
      omega

/-- Other events change nothing about it. -/
theorem quiet {next : Nat} {more : List Event} (marked : Marked log next)
    (passed : ∀ i, .passed i ∉ more)
    (delivered : ∀ i value outcomes, .delivered i value outcomes ∉ more) :
    Marked (log ++ more) next where
  passed i := by
    rw [List.mem_append, marked.passed i]
    exact or_iff_left (passed i)
  delivered i value outcomes inside :=
    (List.mem_append.mp inside).elim (marked.delivered i value outcomes)
      fun inMore => absurd inMore (delivered i value outcomes)

end Marked

namespace Course

/-- What holds at the start and is kept by every deed, by reading ahead and by calls of sinks
holds all along a course. -/
theorem keeps (Inv : List Event → Run → Prop)
    (begins : origin.state = .pending →
      Inv [] { origin with result := { origin.result with state := .running } })
    (turns : ∀ {log w r w' r'}, Course network rely origin log w r → r.state = .running →
      Inv log r → Deed network w r w' r' → Inv (log ++ report network w r) r')
    (reads : ∀ {log w r sources loads operator params inputs r'},
      Course network rely origin log w r → r.state = .running → Inv log r →
      r.chain.steps[r.next]? = some (.merge sources loads operator params) →
      sources[r.gathered.length]? = none →
      mergeInputs network w.store r loads = .ok (inputs, r') →
      Inv (log ++ pendingReadings network w.store r loads)
        { r.entered (entrants (pendingReadings network w.store r loads)) with
          gathered := inputs, loaded := true })
    (calls : ∀ {log w r} calls, Course network rely origin log w r → r.state = .running →
      Inv log r → Inv log { r with calls })
    (way : Course network rely origin log w r) : Inv log r := by
  induction way with
  | started begun =>
      obtain ⟨pending, rfl⟩ := start_eq_ok begun
      exact begins pending
  | turned before turn ih =>
      obtain ⟨running, deed⟩ := deed_of_advance turn
      exact turns before running ih deed
  | readAhead before running here asked read ih =>
      rw [mergeInputs_run read]
      exact reads before running ih here asked read
  | summoned before running ih => exact calls _ before running ih
  | called position before running ih => exact calls _ before running ih
  | answered before running named top answer ih => exact calls _ before running ih
  | waited before others ih => exact ih

theorem chain_eq (way : Course network rely origin log w r) : r.chain = origin.chain := by
  refine way.keeps (fun _ r => r.chain = origin.chain) (fun _ => rfl) ?_ ?_ ?_
  · intro _ _ _ _ _ _ running ih deed
    exact (deed.frame running).1.trans ih
  · intro _ _ _ _ _ _ _ _ _ _ _ ih _ _ _
    exact ih
  · intro _ _ _ _ _ _ ih
    exact ih

theorem scopes_eq (way : Course network rely origin log w r) : r.scopes = origin.scopes := by
  refine way.keeps (fun _ r => r.scopes = origin.scopes) (fun _ => rfl) ?_ ?_ ?_
  · intro _ _ _ _ _ _ running ih deed
    exact (deed.frame running).2.1.trans ih
  · intro _ _ _ _ _ _ _ _ _ _ _ ih _ _ _
    exact ih
  · intro _ _ _ _ _ _ ih
    exact ih

theorem state_ne_pending (way : Course network rely origin log w r) : r.state ≠ .pending := by
  refine way.keeps (fun _ r => r.state ≠ .pending) (fun _ => nofun) ?_ ?_ ?_
  · intro _ _ _ _ _ _ running _ deed
    exact (deed.frame running).2.2.1
  · intro _ _ _ _ _ _ _ _ _ _ _ ih _ _ _
    exact ih
  · intro _ _ _ _ _ _ ih
    exact ih

/-- The labels that a run counts as its origins are those that have entered it. -/
theorem origins_eq (way : Course network rely origin log w r) :
    r.origins = origin.origins ∪ entrants log := by
  refine way.keeps (fun log r => r.origins = origin.origins ∪ entrants log)
    (fun _ => (SortedSet.union_empty _).symm) ?_ ?_ ?_
  · intro log w r w' r' _ running ih deed
    rw [entrants_append, ← SortedSet.union_assoc, ← ih]
    exact (deed.frame running).2.2.2
  · intro log w r _ _ _ _ _ _ _ _ ih _ _ _
    rw [entrants_append, ← SortedSet.union_assoc, ← ih]
    rfl
  · intro _ _ _ _ _ _ ih
    exact ih

theorem exists_step (fresh : origin.next = 0) (way : Course network rely origin log w r)
    (running : r.state = .running) : ∃ step, r.chain.steps[r.next]? = some step := by
  have less : r.next < r.chain.steps.length := by
    refine way.keeps (fun _ r => r.state = .running → r.next < r.chain.steps.length)
      ?_ ?_ ?_ ?_ running
    · intro _ _
      show origin.next < origin.chain.steps.length
      rw [fresh]
      exact List.length_pos_iff.mpr origin.chain.steps_ne
    · intro log w r w' r' _ before ih deed running
      rcases deed.passes_or_collects before running with passes | ⟨_, _, collects⟩
      · have state := passes.state
        rw [running] at state
        split at state
        · exact nomatch state
        · rw [passes.chain, passes.next]
          omega
      · rw [collects.same]
        exact ih before
    · intro _ _ _ _ _ _ _ _ _ _ _ ih _ _ _ running
      exact ih running
    · intro _ _ _ _ _ _ ih running
      exact ih running
  exact ⟨_, List.getElem?_eq_getElem less⟩

/-- Events of a step are reported when its turn comes. -/
theorem marked (fresh : origin.next = 0) (way : Course network rely origin log w r)
    (running : r.state = .running) : Marked log r.next := by
  refine way.keeps (fun log r => r.state = .running → Marked log r.next) ?_ ?_ ?_ ?_ running
  · intro _ _
    rw [show _ = 0 from fresh]
    exact .nil
  · intro log w r w' r' _ before ih deed running
    rcases deed.passes_or_collects before running with passes | ⟨_, _, collects⟩
    · exact (ih before).passes passes
    · obtain rfl := collects.same
      rw [collects.events]
      refine (ih before).quiet (fun _ inside => ?_) fun _ _ _ inside => ?_
      · exact nomatch List.mem_singleton.mp inside
      · exact nomatch List.mem_singleton.mp inside
  · intro log w r _ _ _ _ _ _ _ before ih _ _ _ _
    refine (ih before).quiet (fun _ inside => ?_) fun _ _ _ inside => ?_
    · obtain ⟨_, _, same⟩ := read_of_mem_pendingReadings inside
      exact nomatch same
    · obtain ⟨_, _, same⟩ := read_of_mem_pendingReadings inside
      exact nomatch same
  · intro _ _ _ _ _ _ ih
    exact ih

end Course

/-! ## Runs without a break -/

/-- Turns taken one after the other go on with a course. -/
theorem Course.takeTurns (way : Course network rely origin log w r) (turns : Nat) :
    ∃ more, Course network rely origin (log ++ more) (takeTurns network turns w r).1
      (takeTurns network turns w r).2 := by
  induction turns generalizing log w r with
  | zero =>
      refine ⟨[], ?_⟩
      rw [List.append_nil]
      exact way
  | succ turns ih =>
      unfold Run.takeTurns
      cases turn : advance network w r with
      | none =>
          refine ⟨[], ?_⟩
          rw [List.append_nil]
          exact way
      | some after =>
          obtain ⟨w', r'⟩ := after
          obtain ⟨more, further⟩ := ih (way.turned turn)
          refine ⟨report network w r ++ more, ?_⟩
          rw [← List.append_assoc]
          exact further

/-- A run without a break that returns has a course, whatever others might have done. -/
theorem returned_of_run {w' : World} {r' : Run} (ran : run network w origin = .returned w' r') :
    ∃ log, Returned network rely origin log r'.result := by
  unfold run at ran
  cases begun : start w origin with
  | error mishap => simp [begun] at ran
  | ok begins =>
      obtain ⟨w₁, r₁⟩ := begins
      rw [begun] at ran
      have started : Course network rely origin [] w₁ r₁ := .started begun
      obtain ⟨log, way⟩ := started.takeTurns r₁.turnsLeft
      unfold conclusion at ran
      dsimp only at ran
      split at ran
      · rename_i terminal
        split at ran
        · rename_i closed
          obtain ⟨rfl, rfl⟩ := End.returned.inj ran
          exact ⟨_, _, _, _, _, way, terminal, closed, rfl⟩
        · exact nomatch ran
      · exact nomatch ran

end TaintFlow.Run
