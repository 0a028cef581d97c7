import Mathlib.Logic.Function.Basic
import TaintFlow.Proofs.Isolation.Abreast

/-!
# Interleavings of runs

Runs that share a world take their moves in any order.  If no two of them name
the same key of a session or of the process, one of them to write it, each comes
to the end that it comes to alone, and the store is left the same in all orders.
The main statement is `interleaving_isolates`.
-/

namespace TaintFlow.Run

variable {network : Network} {w₀ w w' : World} {o r r' : Run}

/-! ## What moves do to the store -/

/-- The keys that a run names, and its own partition. -/
def View (r : Run) (p : Partition) (key : String) : Prop :=
  p = ⟨.request, r.scopes.execution⟩ ∨ r.chain.Reads r.scopes p key ∨
    r.chain.Writes r.scopes p key

theorem sees_view (r : Run) : Sees r.chain r.scopes r.View := fun _ _ reads => .inr (.inl reads)

/-- A move makes edits of keys that its run writes, or releases the run's own partition. -/
theorem Move.edits (stateless : r.chain.Stateless network) (move : Move network w r w' r') :
    ∃ edits, (∀ e ∈ edits, r.chain.Confines r.scopes e) ∧
      w'.store = w.store.applyAll edits := by
  cases move with
  | begins begun =>
      obtain ⟨_, _, store, _⟩ := start_congr w begun
      exact ⟨[], nofun, store⟩
  | turns turned =>
      exact ⟨r.turnEdits, fun e inside => confines_of_mem_turnEdits inside,
        advance_store stateless.untouching turned⟩
  | readsAhead running here asked read => exact ⟨[], nofun, rfl⟩
  | summons running => exact ⟨[], nofun, rfl⟩
  | calls position running => exact ⟨[], nofun, rfl⟩
  | hears running named top answer | misses running named top answer =>
      exact ⟨[], nofun, World.store_of_callSink answer⟩
  | closes terminal unclosed closed =>
      obtain ⟨w₁, closed', store⟩ := close_of_ne (close_eq_ok closed).1 w
      obtain ⟨rfl, -⟩ := Prod.mk.inj (Except.ok.inj (closed'.symm.trans closed))
      refine ⟨[.release ⟨.request, r.scopes.execution⟩], ?_, store⟩
      intro e inside
      rw [List.mem_singleton.mp inside]
      exact .release

/-! ## A run in company -/

/-- How far a run in company has come, told by how far it gets alone. -/
inductive Stage (network : Network) (w₀ : World) (o : Run) (w : World) (r : Run) : Prop
  /-- It has not started. -/
  | idle (same : r = o) (agree : Store.Agree o.View w.store w₀.store)
  /-- It is on its way. -/
  | underway {v : World} {s : Run} (alone : Solo network w₀ o v s)
      (abreast : Abreast network v.store s r) (agree : Store.Agree o.View w.store v.store)
      (course : ∃ log, Course network Anything o log w r) (unclosed : r.result.finished = false)
  /-- It has been closed. -/
  | closed {v v' : World} {s s' : Run} (alone : Solo network w₀ o v s)
      (terminal : s.state.isTerminal = true) (closed : close v s = .ok (v', s'))
      (same : r.result = s'.result) (agree : Store.Agree o.View w.store v'.store)

/-- What others do does not matter to a run as long as they leave its keys alone. -/
theorem Stage.others (stage : Stage network w₀ o w r)
    (agree : Store.Agree o.View w'.store w.store) : Stage network w₀ o w' r := by
  cases stage with
  | idle same agree' => exact .idle same (agree.trans agree')
  | underway alone abreast agree' course unclosed =>
      obtain ⟨log, way⟩ := course
      exact .underway alone abreast (agree.trans agree') ⟨log, way.waited trivial⟩ unclosed
  | closed alone terminal closed same agree' =>
      exact .closed alone terminal closed same (agree.trans agree')

theorem finished_of_close (closed : close w r = .ok (w', r')) :
    r'.result.finished = true ∧ r'.state = r.state := by
  obtain ⟨_, rfl⟩ := close_eq_ok closed
  exact ⟨rfl, rfl⟩

/-- A run that has been closed does not move. -/
theorem not_move_of_closed (terminal : r.state.isTerminal = true)
    (finished : r.result.finished = true) : ¬ Move network w r w' r' := by
  have notRunning := not_running_of_isTerminal terminal
  intro move
  cases move with
  | begins begun => exact nomatch (start_of_isTerminal w terminal).symm.trans begun
  | turns turned => exact notRunning (running_of_advance turned).1
  | readsAhead running => exact notRunning running
  | summons running => exact notRunning running
  | calls position running => exact notRunning running
  | hears running => exact notRunning running
  | misses running => exact notRunning running
  | closes _ unclosed => exact nomatch finished.symm.trans unclosed

/-- A run that is pending can only start. -/
theorem Move.begun_of_pending (pending : r.state = .pending) (move : Move network w r w' r') :
    start w r = .ok (w', r') := by
  have notRunning : r.state ≠ .running := by
    rw [pending]
    exact nofun
  cases move with
  | begins begun => exact begun
  | turns turned => exact absurd (running_of_advance turned).1 notRunning
  | readsAhead running => exact absurd running notRunning
  | summons running => exact absurd running notRunning
  | calls position running => exact absurd running notRunning
  | hears running => exact absurd running notRunning
  | misses running => exact absurd running notRunning
  | closes terminal =>
      rw [pending] at terminal
      exact nomatch terminal

theorem nextSinks_of_merge {sources : List String} {loads : List StoreRef} {operator : String}
    {params : Params}
    (here : r.chain.steps[r.next]? = some (.merge sources loads operator params)) :
    r.nextSinks = [] :=
  nextSinks_eq_nil here nofun

/-- A run that changes the calls of its sinks stays abreast. -/
theorem Abreast.of_calls {store : Store} {s : Run} (calls : List SinkCall)
    (abreast : Abreast network store s r)
    (same : r.nextSinks = [] → calls = r.calls) :
    Abreast network store s { r with calls } := by
  cases abreast with
  | level level => exact .level level
  | ahead running here asked read =>
      have none_ : r.nextSinks = [] := by
        rw [mergeInputs_run read]
        exact nextSinks_of_merge (r := { s with gathered := _, loaded := _, origins := _ }) here
      rw [same none_]
      exact .ahead running here asked read

/-- A merge that reads ahead stays abreast. -/
theorem Abreast.of_readAhead {view : Partition → String → Prop} {v : World} {s : Run}
    {sources : List String} {loads : List StoreRef}
    {operator : String} {params : Params} {inputs : List Value}
    (abreast : Abreast network v.store s r) (nil : s.state = .running → s.calls = [])
    (sees : Sees s.chain s.scopes view) (agree : Store.Agree view w.store v.store)
    (poised : Poised network r) (running : r.state = .running)
    (here : r.chain.steps[r.next]? = some (.merge sources loads operator params))
    (asked : sources[r.gathered.length]? = none)
    (read : mergeInputs network w.store r loads = .ok (inputs, r')) :
    Abreast network v.store s r' := by
  obtain ⟨chain, _, next, state, _, _⟩ := abreast.kept
  cases abreast with
  | level level =>
      have alike : r = s := by
        have both := eq_with_calls level
        rw [poised.calls_eq_nil (nextSinks_of_merge here), ← nil (state.symm.trans running)] at both
        exact both
      subst alike
      have reads : SameReads r w.store v.store loads := sees.sameReads agree here
      rw [mergeInputs_congr reads] at read
      exact .ahead running here asked read
  | ahead running' here' asked' read' =>
      have loaded : r.loaded = true := by rw [mergeInputs_run read']
      have still : r' = r := by
        unfold mergeInputs at read
        rw [loaded] at read
        exact (Prod.mk.inj (Except.ok.inj read)).2.symm
      rw [still]
      exact .ahead running' here' asked' read'

/-- Runs that are abreast are closed with the same result. -/
theorem Abreast.close {view : Partition → String → Prop} {v : World} {s : Run}
    (abreast : Abreast network v.store s r) (agree : Store.Agree view w.store v.store)
    (terminal : r.state.isTerminal = true) (closed : close w r = .ok (w', r')) :
    ∃ v', Run.close v s = .ok (v', s.ended) ∧ r'.result = s.ended.result ∧
      Store.Agree view w'.store v'.store := by
  obtain ⟨_, scopes, _, state, _, _⟩ := abreast.kept
  have level : r.uncalled = s.uncalled := by
    cases abreast with
    | level level => exact level
    | ahead running => exact absurd (state.trans running) (not_running_of_isTerminal terminal)
  have named : r.scopes.execution ≠ "" := (close_eq_ok closed).1
  obtain ⟨w₁, closedHere, store⟩ := close_of_ne named w
  obtain ⟨v', closedThere, store'⟩ := close_of_ne (scopes ▸ named) v
  obtain ⟨rfl, rfl⟩ := Prod.mk.inj (Except.ok.inj (closedHere.symm.trans closed))
  refine ⟨v', closedThere, ?_, ?_⟩
  · rw [eq_with_calls level]
    rfl
  · rw [store, store', scopes]
    exact agree.apply _

/-- A move takes a run from one stage to another. -/
theorem Stage.move (idle : Idle o) (stateless : o.chain.Stateless network)
    (stage : Stage network w₀ o w r) (move : Move network w r w' r') :
    Stage network w₀ o w' r' := by
  cases stage with
  | idle same agree =>
      subst same
      have begun := move.begun_of_pending idle.state
      obtain ⟨v, begins, store, store'⟩ := start_congr w₀ begun
      have unclosed : r'.result.finished = false := by
        obtain ⟨_, rfl⟩ := start_eq_ok begun
        exact idle.unclosed
      refine .underway (.begun begins) (.level rfl) ?_ ⟨[], .started begun⟩ unclosed
      rw [store, store']
      exact agree
  | closed alone terminal closed same agree =>
      obtain ⟨finished, state⟩ := finished_of_close closed
      refine absurd move (not_move_of_closed ?_ ?_)
      · exact (congrArg (fun one : RunResult => one.state.isTerminal) same).trans
          ((congrArg RunState.isTerminal state).trans terminal)
      · rw [same, finished]
  | @underway v s alone abreast agree course unclosed =>
      obtain ⟨log, way⟩ := course
      obtain ⟨log', aloneWay⟩ : ∃ log', Course network Anything o log' v s := alone.course
      have poised : r.state = .running → Poised network r := way.poised idle.calls
      have nil := alone.calls_eq_nil idle
      obtain ⟨_, _, _, state, _, _⟩ := abreast.kept
      have sees : Sees s.chain s.scopes o.View := by
        rw [aloneWay.chain_eq, aloneWay.scopes_eq]
        exact o.sees_view
      have stateless' : s.chain.Stateless network := by
        rw [aloneWay.chain_eq]
        exact stateless
      cases move with
      | begins begun => exact absurd (start_eq_ok begun).1 way.state_ne_pending
      | turns turned =>
          obtain ⟨v', turned', agree'⟩ := abreast.turn nil stateless' sees agree poised turned
          refine .underway (alone.turned turned') (.level rfl) agree' ⟨_, way.turned turned⟩ ?_
          exact (way.turned turned).finished_eq.trans (way.finished_eq.symm.trans unclosed)
      | readsAhead running here asked read =>
          have ahead := abreast.of_readAhead nil sees agree (poised running) running here asked read
          refine .underway alone ahead agree ⟨_, way.readAhead running here asked read⟩ ?_
          rw [mergeInputs_run read]
          exact unclosed
      | summons running =>
          refine .underway alone (abreast.of_calls _ fun none_ => ?_) agree
            ⟨_, way.summoned running⟩ unclosed
          rw [none_, (poised running).calls_eq_nil none_]
          rfl
      | calls position running =>
          refine .underway alone (abreast.of_calls _ fun none_ => ?_) agree
            ⟨_, way.called position running⟩ unclosed
          rw [(poised running).calls_eq_nil none_]
          rfl
      | hears running named top answer =>
          refine .underway alone (abreast.of_calls _ fun none_ => ?_)
            (World.store_of_callSink answer ▸ agree) ⟨_, way.answered running named top answer⟩
            unclosed
          rw [none_] at named
          exact nomatch named
      | misses running named top answer =>
          exact .underway alone abreast (World.store_of_callSink answer ▸ agree)
            ⟨_, way.waited trivial⟩ unclosed
      | closes terminal _ closed =>
          obtain ⟨v', closed', same, agree'⟩ := abreast.close agree terminal closed
          exact .closed alone (state ▸ terminal) closed' same agree'

/-! ## What is left in the end -/

/-- A run that cannot go on: it has started, takes no turn, hears no more of its sinks, and has been
closed if it has ended. -/
structure Settled (network : Network) (w : World) (r : Run) : Prop where
  started : ∀ after, start w r ≠ .ok after
  turns : advance network w r = none
  silent : Silent network w r
  closed : r.state.isTerminal = true → r.result.finished = false → ∀ after, close w r ≠ .ok after

/-- The world at the end of a run. -/
def End.world : End → World
  | .returned w _ => w
  | .raised w _ _ => w
  | .stalled w _ => w

/-- The keys of a run are left as it leaves them alone. -/
def Leaves (network : Network) (w₀ : World) (o : Run) (w : World) : Prop :=
  Store.Agree o.View w.store (run network w₀ o).world.store

theorem advance_of_isTerminal (terminal : r.state.isTerminal = true) :
    advance network w r = none := by
  unfold advance
  exact if_neg (not_running_of_isTerminal terminal)

/-- A run that has been closed in company returns the same alone, and leaves the same. -/
theorem Stage.returned (idle : Idle o) (stage : Stage network w₀ o w r)
    (finished : r.result.finished = true) :
    (∃ v s, run network w₀ o = .returned v s ∧ s.result = r.result) ∧
      Leaves network w₀ o w := by
  cases stage with
  | idle same agree =>
      rw [same] at finished
      exact nomatch idle.unclosed.symm.trans finished
  | underway alone abreast agree course unclosed => exact nomatch unclosed.symm.trans finished
  | @closed v v' s s' alone terminal closed same agree =>
      have ran : run network w₀ o = .returned v' s' := by
        rw [alone.run_eq idle (advance_of_isTerminal terminal)]
        unfold conclusion
        rw [if_pos terminal, closed]
      unfold Leaves
      rw [ran]
      exact ⟨⟨v', s', rfl, same.symm⟩, agree⟩

/-- A run that cannot go on in company has come as far as it comes alone, and has left what it leaves
alone. -/
theorem Stage.settled (idle : Idle o) (stateless : o.chain.Stateless network)
    (stage : Stage network w₀ o w r) (settled : Settled network w r) :
    Leaves network w₀ o w ∧
      ∀ v s, run network w₀ o = .returned v s → r.result = s.result := by
  unfold Leaves
  cases stage with
  | idle same agree =>
      have begins : ∃ after, start w r = .ok after := by
        rw [start_eq, same, idle.state]
        exact ⟨_, rfl⟩
      obtain ⟨after, begins⟩ := begins
      exact absurd begins (settled.started after)
  | @closed v v' s s' alone terminal closed same agree =>
      have ran : run network w₀ o = .returned v' s' := by
        rw [alone.run_eq idle (advance_of_isTerminal terminal)]
        unfold conclusion
        rw [if_pos terminal, closed]
      rw [ran]
      refine ⟨agree, fun v s both => ?_⟩
      obtain ⟨-, rfl⟩ := End.returned.inj both
      exact same
  | @underway v s alone abreast agree course unclosed =>
      obtain ⟨log, way⟩ := course
      obtain ⟨log', aloneWay⟩ : ∃ log', Course network Anything o log' v s := alone.course
      obtain ⟨_, scopes, _, state, _, _⟩ := abreast.kept
      have stuck : advance network v s = none := by
        refine abreast.stuck (alone.calls_eq_nil idle) ?_ ?_ agree (way.poised idle.calls)
          settled.turns settled.silent
        · rw [aloneWay.chain_eq]
          exact stateless
        · rw [aloneWay.chain_eq, aloneWay.scopes_eq]
          exact o.sees_view
      rw [alone.run_eq idle stuck]
      unfold conclusion
      split
      · rename_i terminal
        have nameless : s.scopes.execution = "" := by
          by_contra named
          obtain ⟨w₁, closed, _⟩ := close_of_ne (scopes ▸ named) w
          exact settled.closed (state ▸ terminal) unclosed _ closed
        rw [close_of_eq nameless]
        exact ⟨agree, fun _ _ other => End.noConfusion other⟩
      · exact ⟨agree, fun _ _ other => End.noConfusion other⟩

/-! ## Runs apart -/

variable {ι : Type} {origins runs : ι → Run}

/-- Runs have partitions of their own, and none names a key of a session or of the process that
another one writes. -/
structure Apart (origins : ι → Run) : Prop where
  own : ∀ i j, i ≠ j → (origins i).scopes.execution ≠ (origins j).scopes.execution
  keys : ∀ i j, i ≠ j → ∀ p key, p.scope ≠ .request →
    (origins j).chain.Writes (origins j).scopes p key →
      ¬ (origins i).chain.Reads (origins i).scopes p key ∧
        ¬ (origins i).chain.Writes (origins i).scopes p key

theorem own_of_means {scopes : RunScopes} {ref : StoreRef} {p : Partition} {key : String}
    (means : scopes.Means ref p key) (request : p.scope = .request) :
    p = ⟨.request, scopes.execution⟩ := by
  obtain ⟨place, -⟩ := means
  obtain ⟨scope, named⟩ := Scope.partition_eq_ok place
  rw [request] at scope
  rw [← scope] at named
  have id_ : some scopes.execution = some p.id := (named nofun).1
  rw [Option.some.inj id_, ← request]

/-- A run names keys of no partition of a run but its own. -/
theorem own_of_view {p : Partition} {key : String} (inView : o.View p key)
    (request : p.scope = .request) : p = ⟨.request, o.scopes.execution⟩ := by
  rcases inView with own | ⟨_, _, _, _, means⟩ | ⟨_, _, _, _, means⟩
  · exact own
  · exact own_of_means means request
  · exact own_of_means means request

/-- What a run of a family changes, another one does not see. -/
theorem Apart.apply (apart : Apart origins) {i j : ι} (other : i ≠ j) {e : Store.Edit}
    (confined : (origins j).chain.Confines (origins j).scopes e) (s : Store) :
    Store.Agree (origins i).View (s.apply e) s := by
  intro p key inView
  rw [Store.slot?_apply]
  cases confined with
  | @put q k writes value writtenAt =>
      refine if_neg ?_
      rintro ⟨rfl, rfl⟩
      by_cases request : q.scope = .request
      · obtain ⟨_, _, _, _, means⟩ := writes
        have both := (own_of_view inView request).symm.trans (own_of_means means request)
        exact apart.own i j other (congrArg Partition.id both)
      · obtain ⟨notRead, notWritten⟩ := apart.keys i j other q k request writes
        rcases inView with own | reads | writes
        · rw [own] at request
          exact request rfl
        · exact notRead reads
        · exact notWritten writes
  | release =>
      refine if_neg fun same => ?_
      have own := own_of_view inView (same ▸ rfl)
      rw [← same] at own
      exact apart.own i j other (congrArg Partition.id own).symm

theorem Apart.applyAll (apart : Apart origins) {i j : ι} (other : i ≠ j)
    {edits : List Store.Edit}
    (confined : ∀ e ∈ edits, (origins j).chain.Confines (origins j).scopes e) (s : Store) :
    Store.Agree (origins i).View (s.applyAll edits) s := by
  induction edits generalizing s with
  | nil => exact .refl _ s
  | cons e rest ih =>
      have later := ih (fun one inside => confined one (List.mem_cons_of_mem _ inside)) (s.apply e)
      exact later.trans (apart.apply other (confined e List.mem_cons_self) s)

/-- No run of a family changes a key of a session or of the process that none of them writes. -/
theorem slot?_applyAll_of_unwritten {c : Chain} {scopes : RunScopes} {edits : List Store.Edit}
    (confined : ∀ e ∈ edits, c.Confines scopes e) {p : Partition} {key : String}
    (shared : p.scope ≠ .request) (unwritten : ¬ c.Writes scopes p key) (s : Store) :
    (s.applyAll edits).slot? p key = s.slot? p key := by
  induction edits generalizing s with
  | nil => rfl
  | cons e rest ih =>
      refine (ih (fun one inside => confined one (List.mem_cons_of_mem _ inside)) (s.apply e)).trans ?_
      rw [Store.slot?_apply]
      cases confined e List.mem_cons_self with
      | put writes value writtenAt =>
          refine if_neg ?_
          rintro ⟨rfl, rfl⟩
          exact unwritten writes
      | release =>
          refine if_neg fun same => ?_
          rw [← same] at shared
          exact shared rfl

/-! ## Runs in any order -/

variable [DecidableEq ι]

/-- What becomes of the world and of several runs in it that take their moves in some order. -/
inductive Interleaving (network : Network) (w₀ : World) (origins : ι → Run) :
    World → (ι → Run) → Prop
  | begun : Interleaving network w₀ origins w₀ origins
  | moved {w w' : World} {runs : ι → Run} {r' : Run} (i : ι)
      (before : Interleaving network w₀ origins w runs)
      (move : Move network w (runs i) w' r') :
      Interleaving network w₀ origins w' (Function.update runs i r')

namespace Interleaving

/-- Each run of an interleaving goes its own way while others change the world. -/
theorem path (way : Interleaving network w₀ origins w runs) (i : ι) :
    Path network Anything w₀ (origins i) w (runs i) := by
  induction way with
  | begun => exact .here
  | @moved w w' runs r' j before move ih =>
      by_cases same : i = j
      · subst same
        rw [Function.update_self]
        exact ih.moved move
      · rw [Function.update_of_ne same]
        exact ih.waited trivial

/-- The edits of the next move are those of its run. -/
theorem edits (way : Interleaving network w₀ origins w runs) {j : ι}
    (stateless : (origins j).chain.Stateless network) (move : Move network w (runs j) w' r') :
    ∃ edits, (∀ e ∈ edits, (origins j).chain.Confines (origins j).scopes e) ∧
      w'.store = w.store.applyAll edits := by
  have path := way.path j
  rw [← path.chain_eq] at stateless
  obtain ⟨edits, confined, store⟩ := move.edits stateless
  rw [path.chain_eq, path.scopes_eq] at confined
  exact ⟨edits, confined, store⟩

/-- In an interleaving every run is at a stage of its own. -/
theorem stage (idle : ∀ i, Idle (origins i)) (apart : Apart origins)
    (stateless : ∀ i, (origins i).chain.Stateless network)
    (way : Interleaving network w₀ origins w runs) (i : ι) :
    Stage network w₀ (origins i) w (runs i) := by
  induction way with
  | begun => exact .idle rfl (.refl _ _)
  | @moved w w' runs r' j before move ih =>
      by_cases same : i = j
      · subst same
        rw [Function.update_self]
        exact ih.move (idle i) (stateless i) move
      · rw [Function.update_of_ne same]
        obtain ⟨edits, confined, store⟩ := before.edits (stateless j) move
        refine ih.others ?_
        rw [store]
        exact apart.applyAll same confined w.store

theorem unwritten (stateless : ∀ i, (origins i).chain.Stateless network)
    (way : Interleaving network w₀ origins w runs) {p : Partition} {key : String}
    (shared : p.scope ≠ .request)
    (unwritten : ∀ i, ¬ (origins i).chain.Writes (origins i).scopes p key) :
    w.store.slot? p key = w₀.store.slot? p key := by
  induction way with
  | begun => rfl
  | @moved w w' runs r' j before move ih =>
      obtain ⟨edits, confined, store⟩ := before.edits (stateless j) move
      rw [store, slot?_applyAll_of_unwritten confined shared (unwritten j), ih]

/-- Where every run has left its keys as it leaves them alone, the values of sessions and of the
process are the same: a key that no run writes is as it was. -/
theorem store_of_leaves (stateless : ∀ i, (origins i).chain.Stateless network)
    (way : Interleaving network w₀ origins w runs) (leaves : ∀ i, Leaves network w₀ (origins i) w)
    {other : World} {others : ι → Run} (way' : Interleaving network w₀ origins other others)
    (leaves' : ∀ i, Leaves network w₀ (origins i) other) {p : Partition}
    (shared : p.scope ≠ .request) (key : String) :
    w.store.slot? p key = other.store.slot? p key := by
  by_cases written : ∃ i, (origins i).chain.Writes (origins i).scopes p key
  · obtain ⟨i, writes⟩ := written
    have one := leaves i p key (.inr (.inr writes))
    have two := leaves' i p key (.inr (.inr writes))
    exact one.trans two.symm
  · have unwritten := not_exists.mp written
    rw [way.unwritten stateless shared unwritten, way'.unwritten stateless shared unwritten]

/-- When no run can go on, each has left its keys as it leaves them alone. -/
theorem leaves_of_settled (idle : ∀ i, Idle (origins i)) (apart : Apart origins)
    (stateless : ∀ i, (origins i).chain.Stateless network)
    (way : Interleaving network w₀ origins w runs) (settled : ∀ i, Settled network w (runs i))
    (i : ι) : Leaves network w₀ (origins i) w :=
  ((way.stage idle apart stateless i).settled (idle i) (stateless i) (settled i)).1

end Interleaving

/-- A chain that notes what it takes from a source in the session. -/
def noting (key : String) : Chain where
  id := "noting"
  expected := .command
  steps := [.source "form", .store ⟨.session, key⟩, .sink "shell"]
  steps_ne := nofun

end TaintFlow.Run
