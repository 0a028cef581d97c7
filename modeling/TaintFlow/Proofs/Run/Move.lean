import TaintFlow.Proofs.Run.Course

/-!
# Moves and paths of a run

A move is one thing that a run does: it starts, takes a turn, reads ahead, calls
one of several sinks, hears of it or does not, or is closed.  A path is a row of moves with
whatever others do to the world in between.  `Course` tells the same with a log
and stops before the run is closed.
-/

namespace TaintFlow.Run

/-- What a run may do next. -/
inductive Move (network : Network) : World → Run → World → Run → Prop
  /-- The run starts. -/
  | begins {w w' : World} {r r' : Run} (begun : start w r = .ok (w', r')) :
      Move network w r w' r'
  /-- The run takes a turn. -/
  | turns {w w' : World} {r r' : Run} (turned : advance network w r = some (w', r')) :
      Move network w r w' r'
  /-- A merge reads its stored inputs before it waits for its operator. -/
  | readsAhead {w : World} {r r' : Run} {sources : List String} {loads : List StoreRef}
      {operator : String} {params : Params} {inputs : List Value}
      (running : r.state = .running)
      (here : r.chain.steps[r.next]? = some (.merge sources loads operator params))
      (asked : sources[r.gathered.length]? = none)
      (read : mergeInputs network w.store r loads = .ok (inputs, r')) :
      Move network w r w r'
  /-- Several sinks are about to be called one by one. -/
  | summons {w : World} {r : Run} (running : r.state = .running) :
      Move network w r w { r with calls := r.nextSinks.map fun _ => .due }
  /-- A call of one of them begins to wait. -/
  | calls {w : World} {r : Run} (position : Nat) (running : r.state = .running) :
      Move network w r w { r with calls := r.calls.set position .underway }
  /-- One of them answers. -/
  | hears {w w' : World} {r : Run} {position : Nat} {id : String} {value : Value}
      {outcome : Except Fault SinkResult}
      (running : r.state = .running)
      (named : r.nextSinks[position]? = some id)
      (top : r.top? = some value)
      (answer : w.callSink network r.location id value.forward r.timeout = (some outcome, w')) :
      Move network w r w' { r with calls := r.calls.set position (.ended outcome) }
  /-- One of them is called and never answers. -/
  | misses {w w' : World} {r : Run} {position : Nat} {id : String} {value : Value}
      (running : r.state = .running)
      (named : r.nextSinks[position]? = some id)
      (top : r.top? = some value)
      (answer : w.callSink network r.location id value.forward r.timeout = (none, w')) :
      Move network w r w' r
  /-- The run has ended and is closed, once. -/
  | closes {w w' : World} {r r' : Run} (terminal : r.state.isTerminal = true)
      (unclosed : r.result.finished = false) (closed : close w r = .ok (w', r')) :
      Move network w r w' r'

/-- Moves of a run, one after the other, and what others do in between. -/
inductive Path (network : Network) (rely : World → World → Prop) (w₀ : World) (r₀ : Run) :
    World → Run → Prop
  | here : Path network rely w₀ r₀ w₀ r₀
  | moved {w w' : World} {r r' : Run} (before : Path network rely w₀ r₀ w r)
      (move : Move network w r w' r') : Path network rely w₀ r₀ w' r'
  | waited {w w' : World} {r : Run} (before : Path network rely w₀ r₀ w r)
      (others : rely w w') : Path network rely w₀ r₀ w' r

variable {network : Network} {rely : World → World → Prop} {w w' : World} {r r' : Run}

/-- What every move keeps, a whole path keeps. -/
theorem Path.keeps {w₀ : World} {r₀ : Run} (Inv : Run → Prop)
    (moves : ∀ {w r w' r'}, Inv r → Move network w r w' r' → Inv r')
    (begins : Inv r₀) (path : Path network rely w₀ r₀ w r) : Inv r := by
  induction path with
  | here => exact begins
  | moved before move ih => exact moves ih move
  | waited before others ih => exact ih

/-- A course is a path. -/
theorem Course.path {origin : Run} {log : List Event} (way : Course network rely origin log w r) :
    ∃ w₀, Path network rely w₀ origin w r := by
  induction way with
  | started begun => exact ⟨_, .moved .here (.begins begun)⟩
  | turned before turn ih =>
      obtain ⟨w₀, path⟩ := ih
      exact ⟨w₀, path.moved (.turns turn)⟩
  | readAhead before running here asked read ih =>
      obtain ⟨w₀, path⟩ := ih
      exact ⟨w₀, path.moved (.readsAhead running here asked read)⟩
  | summoned before running ih =>
      obtain ⟨w₀, path⟩ := ih
      exact ⟨w₀, path.moved (.summons running)⟩
  | called position before running ih =>
      obtain ⟨w₀, path⟩ := ih
      exact ⟨w₀, path.moved (.calls position running)⟩
  | answered before running named top answer ih =>
      obtain ⟨w₀, path⟩ := ih
      exact ⟨w₀, path.moved (.hears running named top answer)⟩
  | waited before others ih =>
      obtain ⟨w₀, path⟩ := ih
      exact ⟨w₀, path.waited others⟩

/-! ## What a move leaves as it is -/

/-- Nothing has come of a step meanwhile, and nothing has been written down. -/
structure Quiet (r r' : Run) : Prop where
  chain : r'.chain = r.chain
  scopes : r'.scopes = r.scopes
  next : r'.next = r.next
  stack : r'.stack = r.stack
  state : r'.state = r.state ∨ r.state = .pending ∧ r'.state = .running
  entries : r'.result.trace = r.result.trace
  heard : r'.result.sinkResults = r.result.sinkResults
  error : r'.result.error = r.result.error
  finished : r'.result.finished = r.result.finished ∨ r'.state.isTerminal = true

/-- Only turns do something for the steps of a run. -/
theorem Move.turns_or_quiet (move : Move network w r w' r') :
    advance network w r = some (w', r') ∨ Quiet r r' := by
  cases move with
  | begins begun =>
      obtain ⟨pending, rfl⟩ := start_eq_ok begun
      exact .inr ⟨rfl, rfl, rfl, rfl, .inr ⟨pending, rfl⟩, rfl, rfl, rfl, .inl rfl⟩
  | turns turned => exact .inl turned
  | readsAhead running here asked read =>
      rw [mergeInputs_run read]
      exact .inr ⟨rfl, rfl, rfl, rfl, .inl rfl, rfl, rfl, rfl, .inl rfl⟩
  | summons running => exact .inr ⟨rfl, rfl, rfl, rfl, .inl rfl, rfl, rfl, rfl, .inl rfl⟩
  | calls position running => exact .inr ⟨rfl, rfl, rfl, rfl, .inl rfl, rfl, rfl, rfl, .inl rfl⟩
  | hears running named top answer => exact .inr ⟨rfl, rfl, rfl, rfl, .inl rfl, rfl, rfl, rfl, .inl rfl⟩
  | misses running named top answer => exact .inr ⟨rfl, rfl, rfl, rfl, .inl rfl, rfl, rfl, rfl, .inl rfl⟩
  | closes terminal unclosed closed =>
      obtain ⟨_, rfl⟩ := close_eq_ok closed
      exact .inr ⟨rfl, rfl, rfl, rfl, .inl rfl, rfl, rfl, rfl, .inr terminal⟩

theorem Move.chain_eq (move : Move network w r w' r') : r'.chain = r.chain := by
  rcases move.turns_or_quiet with turned | quiet
  · obtain ⟨running, deed⟩ := deed_of_advance turned
    exact (deed.frame running).1
  · exact quiet.chain

theorem Move.scopes_eq (move : Move network w r w' r') : r'.scopes = r.scopes := by
  rcases move.turns_or_quiet with turned | quiet
  · obtain ⟨running, deed⟩ := deed_of_advance turned
    exact (deed.frame running).2.1
  · exact quiet.scopes

theorem Path.chain_eq {w₀ : World} {r₀ : Run} (path : Path network rely w₀ r₀ w r) :
    r.chain = r₀.chain :=
  path.keeps (fun r => r.chain = r₀.chain) (fun same move => move.chain_eq.trans same) rfl

theorem Path.scopes_eq {w₀ : World} {r₀ : Run} (path : Path network rely w₀ r₀ w r) :
    r.scopes = r₀.scopes :=
  path.keeps (fun r => r.scopes = r₀.scopes) (fun same move => move.scopes_eq.trans same) rfl

/-- A turn that does not end its run leaves it running. -/
theorem state_of_advance (turned : advance network w r = some (w', r')) :
    r.state = .running ∧ (r'.state = .running ∨ r'.state.isTerminal = true) := by
  obtain ⟨running, deed⟩ := deed_of_advance turned
  refine ⟨running, ?_⟩
  rcases deed.cases_of_running running with passes | ⟨_, _, collects⟩ | ⟨_, _, _, judges⟩ | ends
  · rw [passes.state]
    split
    · exact .inr rfl
    · exact .inl rfl
  · rw [collects.same]
    exact .inl running
  · exact .inr judges.isTerminal
  · exact .inr ends.isTerminal

/-- A move that changes the state of a run is allowed to. -/
theorem Move.state_eq_or_allows (move : Move network w r w' r') :
    r'.state = r.state ∨ r.state.allows r'.state = true := by
  rcases move.turns_or_quiet with turned | quiet
  · obtain ⟨running, still | terminal⟩ := state_of_advance turned
    · exact .inl (still.trans running.symm)
    · rw [running]
      exact .inr terminal
  · rcases quiet.state with same | ⟨pending, running⟩
    · exact .inl same
    · rw [pending, running]
      exact .inr rfl

end TaintFlow.Run
