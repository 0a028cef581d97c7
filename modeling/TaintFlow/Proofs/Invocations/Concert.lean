import Mathlib.Data.List.Count
import TaintFlow.Proofs.Invocations.Turn
import TaintFlow.Proofs.Isolation.Abreast

/-!
# Invocations of runs that share a world

Runs of accepted chains act in any order, each call of one of several sinks being
made once, and beside them may be done whatever is not counted.  An act counts
what its run will show: what sinks have said, and the state in which it has been
closed.  So when all runs have been closed, the counters have grown by what is in
their results, and by the sources that they have asked.  The main statement is
`invocations_accounted`.
-/

namespace TaintFlow

/-! ## Replacing an item of a list -/

/-- What is picked from a list in which an item that was not picked has been replaced. -/
theorem perm_filterMap_set {α β : Type} {f : α → Option β} {as : List α} {i : Nat} {a b : α}
    (here : as[i]? = some a) (unpicked : f a = none) :
    ((as.set i b).filterMap f).Perm (as.filterMap f ++ (f b).toList) := by
  induction as generalizing i with
  | nil => cases here
  | cons first rest ih =>
      cases i with
      | zero =>
          obtain rfl := Option.some.inj here
          rw [List.set_cons_zero, List.filterMap_cons_none unpicked]
          cases new : f b with
          | none =>
              rw [List.filterMap_cons_none new]
              exact .of_eq (List.append_nil _).symm
          | some picked =>
              rw [List.filterMap_cons_some new]
              exact (List.perm_append_singleton _ _).symm
      | succ i =>
          rw [List.set_cons_succ]
          have kept := ih here
          cases head : f first with
          | none => rwa [List.filterMap_cons_none head, List.filterMap_cons_none head]
          | some picked =>
              rw [List.filterMap_cons_some head, List.filterMap_cons_some head]
              exact kept.cons picked

/-- What comes of a list in which an item has been replaced by one of which more comes. -/
theorem perm_flatMap_set {α β : Type} {f : α → List β} {as : List α} {i : Nat} {a b : α}
    {more : List β} (here : as[i]? = some a) (new : (f b).Perm (f a ++ more)) :
    ((as.set i b).flatMap f).Perm (as.flatMap f ++ more) := by
  induction as generalizing i with
  | nil => cases here
  | cons first rest ih =>
      cases i with
      | zero =>
          obtain rfl := Option.some.inj here
          rw [List.set_cons_zero, List.flatMap_cons, List.flatMap_cons]
          refine (new.append_right _).trans ?_
          rw [List.append_assoc, List.append_assoc]
          exact List.perm_append_comm.append_left _
      | succ i =>
          rw [List.set_cons_succ, List.flatMap_cons, List.flatMap_cons, List.append_assoc]
          exact (ih here).append_left _

namespace Run

variable {network : Network} {w w' w₀ : World} {r r' : Run} {asked : List String}

/-! ## Acts -/

/-- What a run does next, each call of one of several sinks being made once, and the sources that it
asks in doing so. -/
inductive Act (network : Network) : World → Run → List String → World → Run → Prop
  /-- The run starts. -/
  | begins {w w' : World} {r r' : Run} (begun : start w r = .ok (w', r')) :
      Act network w r [] w' r'
  /-- The run takes a turn. -/
  | turns {w w' : World} {r r' : Run} (turned : advance network w r = some (w', r')) :
      Act network w r r.asks?.toList w' r'
  /-- A merge reads its stored inputs before it waits for its operator. -/
  | readsAhead {w : World} {r r' : Run} {sources : List String} {loads : List StoreRef}
      {operator : String} {params : Params} {inputs : List Value}
      (running : r.state = .running)
      (here : r.chain.steps[r.next]? = some (.merge sources loads operator params))
      (asked : sources[r.gathered.length]? = none)
      (read : mergeInputs network w.store r loads = .ok (inputs, r')) :
      Act network w r [] w r'
  /-- Several sinks are about to be called one by one, of which none has been called. -/
  | summons {w : World} {r : Run} (running : r.state = .running) (uncalled : r.calls = []) :
      Act network w r [] w { r with calls := r.nextSinks.map fun _ => .due }
  /-- A call of one of them that is due begins to wait. -/
  | calls {w : World} {r : Run} (position : Nat) (running : r.state = .running)
      (due : r.calls[position]? = some .due) :
      Act network w r [] w { r with calls := r.calls.set position .underway }
  /-- One of them that has not answered answers. -/
  | hears {w w' : World} {r : Run} {position : Nat} {id : String} {value : Value}
      {call : SinkCall} {outcome : Except Fault SinkResult}
      (running : r.state = .running)
      (named : r.nextSinks[position]? = some id)
      (top : r.top? = some value)
      (called : r.calls[position]? = some call) (unanswered : call.outcome? = none)
      (answer : w.callSink network r.location id value.forward r.timeout = (some outcome, w')) :
      Act network w r [] w' { r with calls := r.calls.set position (.ended outcome) }
  /-- One of them is called and never answers. -/
  | misses {w w' : World} {r : Run} {position : Nat} {id : String} {value : Value}
      (running : r.state = .running)
      (named : r.nextSinks[position]? = some id)
      (top : r.top? = some value)
      (answer : w.callSink network r.location id value.forward r.timeout = (none, w')) :
      Act network w r [] w' r
  /-- The run has ended and is closed, once. -/
  | closes {w w' : World} {r r' : Run} (terminal : r.state.isTerminal = true)
      (unclosed : r.result.finished = false) (closed : close w r = .ok (w', r')) :
      Act network w r [] w' r'

/-- An act is a move. -/
theorem Act.move (act : Act network w r asked w' r') : Move network w r w' r' := by
  cases act with
  | begins begun => exact .begins begun
  | turns turned => exact .turns turned
  | readsAhead running here asked read => exact .readsAhead running here asked read
  | summons running uncalled => exact .summons running
  | calls position running due => exact .calls position running
  | hears running named top called unanswered answer => exact .hears running named top answer
  | misses running named top answer => exact .misses running named top answer
  | closes terminal unclosed closed => exact .closes terminal unclosed closed

/-- A run of a chain that has been accepted, however far it has come. -/
def Accredited (network : Network) (w : World) (r : Run) : Prop :=
  ∃ chain scopes runId context timeout w₁, chain.validate network = .ok () ∧
    Path network Anything w₁ (fresh chain scopes runId context timeout) w r

namespace Accredited

theorem of_fresh {chain : Chain} (valid : chain.validate network = .ok ()) (scopes : RunScopes)
    (runId : String) (context : Payload) (timeout : Option Timeout) (w : World) :
    Accredited network w (fresh chain scopes runId context timeout) :=
  ⟨chain, scopes, runId, context, timeout, w, valid, .here⟩

theorem move (accredited : Accredited network w r) (move : Move network w r w' r') :
    Accredited network w' r' := by
  obtain ⟨_, _, _, _, _, _, valid, path⟩ := accredited
  exact ⟨_, _, _, _, _, _, valid, path.moved move⟩

theorem wait (accredited : Accredited network w r) (w' : World) : Accredited network w' r := by
  obtain ⟨_, _, _, _, _, _, valid, path⟩ := accredited
  exact ⟨_, _, _, _, _, _, valid, path.waited trivial⟩

theorem valid (accredited : Accredited network w r) : r.chain.validate network = .ok () := by
  obtain ⟨_, _, _, _, _, _, valid, path⟩ := accredited
  exact path.chain_eq ▸ valid

theorem poised (accredited : Accredited network w r) (running : r.state = .running) :
    Poised network r := by
  obtain ⟨_, _, _, _, _, _, _, path⟩ := accredited
  obtain ⟨_, way⟩ := path.course_of_running rfl running
  exact way.poised rfl running

/-- A run that has not started has called nothing. -/
theorem uncalled (accredited : Accredited network w r) (pending : r.state = .pending) :
    r.calls = [] := by
  obtain ⟨_, _, _, _, _, _, _, path⟩ := accredited
  rcases path.course rfl with rfl | terminal | ⟨_, way⟩
  · rfl
  · rw [pending] at terminal
    cases terminal
  · exact absurd pending way.state_ne_pending

theorem isTerminal (accredited : Accredited network w r) (finished : r.result.finished = true) :
    r.state.isTerminal = true := by
  obtain ⟨_, _, _, _, _, _, _, path⟩ := accredited
  exact path.isTerminal_of_finished rfl finished

theorem unclosed (accredited : Accredited network w r) (going : r.state.isTerminal = false) :
    r.result.finished = false :=
  Bool.eq_false_iff.mpr fun finished => nomatch going.symm.trans (accredited.isTerminal finished)

/-- The result of a run shows the category that its chain expects. -/
theorem expected_eq (accredited : Accredited network w r) :
    r.result.expected = r.chain.expected := by
  obtain ⟨_, _, _, _, _, _, _, path⟩ := accredited
  rw [path.chain_eq]
  exact congrArg (fun identity => identity.2.2.1) path.identity_eq

end Accredited

/-! ## What acts count -/

/-- What has been counted of a run beside its sources: what sinks have said, be it written down or
not, and how it has been closed. -/
def tally (r : Run) : List Invocation :=
  (r.result.sinkResults ++ if r.state = .running then r.answered else []).map
      SinkResult.invocation ++
    if r.result.finished then [.closed r.result.expected r.state] else []

theorem tally_of_running (running : r.state = .running) (unclosed : r.result.finished = false) :
    r.tally = (r.result.sinkResults ++ r.answered).map SinkResult.invocation := by
  unfold tally
  rw [if_pos running, unclosed]
  exact List.append_nil _

/-- Where no answers are left to be written down, the tally is what the result shows. -/
theorem tally_of_written (written : r.state = .running → r.answered = []) :
    r.tally = r.result.sinkResults.map SinkResult.invocation ++
      if r.result.finished then [.closed r.result.expected r.state] else [] := by
  unfold tally
  split
  · rename_i running
    rw [written running, List.append_nil]
  · rw [List.append_nil]

theorem tally_of_open (written : r.state = .running → r.answered = [])
    (unclosed : r.result.finished = false) :
    r.tally = r.result.sinkResults.map SinkResult.invocation := by
  rw [tally_of_written written, unclosed]
  exact List.append_nil _

/-- After a turn nobody has been called for the next step. -/
theorem calls_of_advance (poised : Poised network r)
    (turned : advance network w r = some (w', r')) (still : r'.state = .running) :
    r'.calls = [] := by
  obtain ⟨running, deed⟩ := deed_of_advance turned
  rcases deed.passes_or_collects running still with passes | ⟨_, _, collects⟩
  · rcases passes.calls with nil | ⟨same, nobody⟩
    · exact nil
    · exact same.trans (poised.calls_eq_nil nobody)
  · obtain ⟨_, _, _, _, here, _⟩ := collects.asked
    have nil := poised.calls_eq_nil (nextSinks_eq_nil here nofun)
    rw [collects.same]
    exact nil

/-- The sinks that a run calls next are registered. -/
theorem registered_of_named (valid : r.chain.validate network = .ok ()) {position : Nat}
    {id : String} (named : r.nextSinks[position]? = some id) : network.sinks.has id = true := by
  have inside := List.mem_of_getElem? named
  obtain ⟨sinks, _, here, _, same⟩ := fanout_of_nextSinks (List.ne_nil_of_mem inside)
  exact (Chain.registered_of_here valid here).2.1 id (same ▸ inside)

/-- What is said when a run starts is not counted. -/
theorem counts_start (begun : start w r = .ok (w', r')) : w.Counts w' [] := by
  unfold start at begun
  obtain ⟨_, _, same⟩ := Except.bind_eq_ok.mp begun
  obtain ⟨rfl, -⟩ := Prod.mk.inj (Except.ok.inj same)
  exact World.counts_of_metrics rfl

/-- An answer that has been heard is in the tally until it is written down. -/
theorem tally_set {position : Nat} {call other : SinkCall} (running : r.state = .running)
    (unclosed : r.result.finished = false) (called : r.calls[position]? = some call)
    (unanswered : call.outcome? = none) :
    ({ r with calls := r.calls.set position other } : Run).tally.Perm
      (r.tally ++ other.outcome?.toList.map fun outcome => (said outcome).invocation) := by
  have after := tally_of_running (r := { r with calls := r.calls.set position other }) running
    unclosed
  have answers := ((perm_filterMap_set (b := other) called unanswered).map said).map
    SinkResult.invocation
  rw [after, tally_of_running running unclosed, List.map_append, List.map_append, List.append_assoc]
  refine (answers.append_left _).trans (.of_eq ?_)
  rw [List.map_append, List.map_append, List.map_map (l := other.outcome?.toList)]
  rfl

/-- **An act counts what it adds to the tally of its run**, and the sources that it asks. -/
theorem Act.counts (blameless : network.engine.Blameless) (accredited : Accredited network w r)
    (act : Act network w r asked w' r') :
    ∃ news, w.Counts w' (asked.map .asked ++ news) ∧ r'.tally.Perm (r.tally ++ news) := by
  have unclosed (running : r.state = .running) : r.result.finished = false :=
    accredited.unclosed (by rw [running]; rfl)
  have unmoved (counts : w.Counts w' []) (same : r'.tally = r.tally) :
      ∃ news, w.Counts w' (([] : List String).map .asked ++ news) ∧
        r'.tally.Perm (r.tally ++ news) :=
    ⟨[], counts, .of_eq (same.trans (List.append_nil _).symm)⟩
  cases act with
  | begins begun =>
      obtain ⟨pending, rfl⟩ := start_eq_ok begun
      have open_ : r.result.finished = false := accredited.unclosed (by rw [pending]; rfl)
      have silent : r.answered = [] := answered_of_nil (accredited.uncalled pending)
      have before := tally_of_open (fun _ => silent) open_
      have after := tally_of_open (r := { r with result := { r.result with state := .running } })
        (fun _ => silent) open_
      exact unmoved (counts_start begun) (after.trans before.symm)
  | turns turned =>
      obtain ⟨running, _⟩ := running_of_advance turned
      have poised := accredited.poised running
      obtain ⟨news, counts, results⟩ := counts_of_advance blameless poised accredited.valid turned
      have open_ : r'.result.finished = false :=
        (finished_of_advance turned).trans (unclosed running)
      refine ⟨news, counts, .of_eq ?_⟩
      rw [tally_of_open (fun still => answered_of_nil (calls_of_advance poised turned still)) open_,
        tally_of_running running (unclosed running), results]
  | readsAhead running here asked read =>
      obtain rfl := mergeInputs_run read
      exact unmoved (World.counts_of_metrics rfl) rfl
  | summons running uncalled =>
      refine unmoved (World.counts_of_metrics rfl) ?_
      have nobody : ({ r with calls := r.nextSinks.map fun _ => .due } : Run).answered = [] := by
        unfold answered
        rw [List.filterMap_map]
        exact congrArg (List.map said) (List.filterMap_eq_nil_iff.mpr fun _ _ => rfl)
      have before := tally_of_open (fun _ => answered_of_nil uncalled) (unclosed running)
      exact (tally_of_open (fun _ => nobody) (unclosed running)).trans before.symm
  | calls position running due =>
      exact ⟨[], World.counts_of_metrics rfl, tally_set running (unclosed running) due rfl⟩
  | @hears _ _ position id value call outcome running named top called unanswered answer =>
      have there := registered_of_named accredited.valid named
      have counts := World.counts_callSink w there r.location value.forward r.timeout
      rw [answer] at counts
      exact ⟨_, counts, tally_set running (unclosed running) called unanswered⟩
  | @misses _ _ position id value running named top answer =>
      have there := registered_of_named accredited.valid named
      have counts := World.counts_callSink w there r.location value.forward r.timeout
      rw [answer] at counts
      exact unmoved counts rfl
  | closes terminal open_ closed =>
      have expected := accredited.expected_eq
      have counts := counts_close closed
      obtain ⟨_, rfl⟩ := close_eq_ok closed
      have ended := not_running_of_isTerminal terminal
      have before := tally_of_open (fun running => absurd running ended) open_
      refine ⟨_, counts, .of_eq ?_⟩
      rw [before, ← expected]
      exact tally_of_written fun running => absurd running ended

/-! ## Runs that act in any order -/

/-- Runs of accepted chains that share a world, and the sources that they have asked in it.  Runs
join, they act in any order, and others do what is not counted. -/
inductive Concert (network : Network) (w₀ : World) : List String → World → List Run → Prop
  | begun : Concert network w₀ [] w₀ []
  /-- A run joins. -/
  | joined {asked : List String} {w : World} {runs : List Run} {chain : Chain}
      (before : Concert network w₀ asked w runs) (valid : chain.validate network = .ok ())
      (scopes : RunScopes) (runId : String) (context : Payload) (timeout : Option Timeout) :
      Concert network w₀ asked w (runs ++ [fresh chain scopes runId context timeout])
  /-- A run acts. -/
  | acted {asked more : List String} {w w' : World} {runs : List Run} {i : Nat} {r r' : Run}
      (before : Concert network w₀ asked w runs) (here : runs[i]? = some r)
      (act : Act network w r more w' r') :
      Concert network w₀ (asked ++ more) w' (runs.set i r')
  /-- Others do what is not counted as an invocation. -/
  | rested {asked : List String} {w w' : World} {runs : List Run}
      (before : Concert network w₀ asked w runs)
      (uncounted : ∀ invocation, w'.counted invocation = w.counted invocation) :
      Concert network w₀ asked w' runs

variable {runs : List Run}

theorem Concert.accredited (concert : Concert network w₀ asked w runs) :
    ∀ r ∈ runs, Accredited network w r := by
  induction concert with
  | begun => exact List.forall_mem_nil _
  | @joined _ w _ _ before valid scopes runId context timeout ih =>
      refine List.forall_mem_append.mpr ⟨ih, List.forall_mem_singleton.mpr ?_⟩
      exact .of_fresh valid scopes runId context timeout w
  | @acted _ _ _ w' _ _ _ _ before here act ih =>
      intro r inside
      rcases List.mem_or_eq_of_mem_set inside with other | rfl
      · exact (ih r other).wait w'
      · exact (ih _ (List.mem_of_getElem? here)).move act.move
  | @rested _ _ w' _ before uncounted ih => exact fun r inside => (ih r inside).wait w'

/-- All along, what has been counted is what the runs have asked and what is in their tallies. -/
theorem Concert.counts (blameless : network.engine.Blameless)
    (concert : Concert network w₀ asked w runs) :
    w₀.Counts w (asked.map .asked ++ runs.flatMap tally) := by
  induction concert with
  | begun => exact World.counts_of_metrics rfl
  | @joined _ _ _ chain before valid scopes runId context timeout ih =>
      have nothing : (fresh chain scopes runId context timeout).tally = [] :=
        tally_of_open (fun _ => rfl) rfl
      rw [List.flatMap_append, List.flatMap_singleton, nothing, List.append_nil]
      exact ih
  | acted before here act ih =>
      have accredited := before.accredited _ (List.mem_of_getElem? here)
      obtain ⟨news, counts, tallies⟩ := act.counts blameless accredited
      intro invocation
      rw [counts invocation, ih invocation]
      simp only [List.map_append, List.count_append,
        (perm_flatMap_set here tallies).count_eq invocation]
      omega
  | rested before uncounted ih => exact fun invocation => (uncounted invocation).trans (ih invocation)

end Run

/-! ## What results show -/

namespace RunResult

/-- What has been counted of a run that came back with a result. -/
def invocations (result : RunResult) : List Invocation :=
  result.sinkResults.map SinkResult.invocation ++ [.closed result.expected result.state]

end RunResult

namespace Run

variable {network : Network} {w w₀ : World} {asked : List String} {runs : List Run}

/-- What has been counted of runs that have all been closed is what is in their results. -/
theorem Concert.counts_results (blameless : network.engine.Blameless)
    (concert : Concert network w₀ asked w runs)
    (returned : ∀ r ∈ runs, r.result.finished = true) :
    w₀.Counts w
      (asked.map .asked ++ (runs.map Run.result).flatMap RunResult.invocations) := by
  have tallies : runs.flatMap tally = (runs.map Run.result).flatMap RunResult.invocations := by
    rw [List.flatMap_map]
    refine List.flatMap_congr fun r inside => ?_
    have terminal := (concert.accredited r inside).isTerminal (returned r inside)
    rw [tally_of_written fun running => absurd running (not_running_of_isTerminal terminal),
      if_pos (returned r inside)]
    rfl
  rw [← tallies]
  exact concert.counts blameless

end Run

end TaintFlow
