import TaintFlow.Proofs.Harness.Attempt
import TaintFlow.Proofs.Isolation.Interleaving
import TaintFlow.Proofs.Run.Ending

/-!
# Runs are refused or come back

A run of a defined chain is refused before anything has happened, or it comes
back with a result, unless something that it calls never does.  This takes an
execution id and a session id that are not empty.  The main statement is
`refused_or_returned`; after it comes what becomes of empty ids.
-/

namespace TaintFlow

/-- A call that a run of the chain makes may never come back. -/
inductive Chain.MayHang (network : Network) (c : Chain) (context : Payload)
    (timeout : Option Timeout) : Prop
  | source {step : Step} {id : String} (inside : step ∈ c.steps) (asked : id ∈ step.sources)
      (w : World) (at_ : World.Location)
      (never : (w.callSource network at_ id context timeout).1 = none) :
      MayHang network c context timeout
  | sink {step : Step} {id : String} (inside : step ∈ c.steps) (named : id ∈ step.sinks)
      (w : World) (at_ : World.Location) (value : Value)
      (never : (w.callSink network at_ id value timeout).1 = none) :
      MayHang network c context timeout
  | operator {step : Step} {id : String} (inside : step ∈ c.steps)
      (applied : step.operator? = some id) (w : World) (at_ : World.Location)
      (inputs : List Value) (params : Params) (index : Option Int)
      (never : (w.applyOperator network at_ id inputs params index).1 = none) :
      MayHang network c context timeout

namespace Run

variable {network : Network} {w w₀ v : World} {r s origin : Run} {step : Step}

/-! ## Turns that are never done -/

theorem stopped_ne_stalled (r : Run) (failure : Failure) : r.stopped failure ≠ .stalled := by
  cases failure <;> nofun

theorem conclude_ne_stalled (w : World) (r : Run) (shown : StepTrace) (delivered : Value) :
    (conclude w r shown delivered).2 ≠ .stalled := by
  unfold conclude
  dsimp only
  split
  · nofun
  · nofun

theorem none_mem_of_mapM_id {α : Type} {given : List (Option α)} (none_ : given.mapM id = none) :
    none ∈ given := by
  induction given with
  | nil => cases none_
  | cons first rest ih =>
      cases first with
      | none => exact List.mem_cons_self
      | some a =>
          rw [List.mapM_cons] at none_
          cases others : rest.mapM id with
          | none => exact List.mem_cons_of_mem _ (ih others)
          | some found =>
              rw [others] at none_
              cases none_

theorem exists_answer {value : Value} {timeout : Option Timeout} {sinks : List String}
    {outcomes : List (Option (Except Fault SinkResult))} {outcome : Option (Except Fault SinkResult)}
    (answers : List.Forall₂ (Answer network timeout value) sinks outcomes)
    (inside : outcome ∈ outcomes) : ∃ id ∈ sinks, Answer network timeout value id outcome := by
  induction answers with
  | nil => cases inside
  | cons one rest ih =>
      rcases List.mem_cons.mp inside with rfl | later
      · exact ⟨_, List.mem_cons_self, one⟩
      · obtain ⟨id, named, answer⟩ := ih later
        exact ⟨id, List.mem_cons_of_mem _ named, answer⟩

theorem missing_of_runFanout_stalled {sinks : List String}
    (stalled : (runFanout network w r step sinks).2 = .stalled) :
    ∃ value, (sinkOutcomes network w r value sinks).mapM id = none := by
  have comes := fanoutTurn network w r step sinks
  generalize runFanout network w r step sinks = result at comes stalled
  cases comes with
  | @stalled value _ _ missing => exact ⟨value.forward, missing⟩
  | concluded => exact absurd stalled (conclude_ne_stalled _ _ _ _)
  | empty => cases stalled
  | failed => cases stalled
  | rejected => cases stalled
  | passed => cases stalled

theorem runStore_ne_stalled (target : StoreRef) : (runStore w r step target).2 ≠ .stalled := by
  unfold runStore
  split
  · nofun
  · dsimp only
    split
    · nofun
    · nofun

theorem runLoad_ne_stalled (origin : StoreRef) : (runLoad network w r step origin).2 ≠ .stalled := by
  unfold runLoad
  split
  · exact stopped_ne_stalled r _
  · nofun

theorem mayHang_of_runSource {id : String} (inside : .source id ∈ r.chain.steps)
    (stalled : (runSource network w r step id).2 = .stalled) :
    r.chain.MayHang network r.context r.timeout := by
  unfold runSource at stalled
  split at stalled
  · rename_i called
    exact .source inside List.mem_cons_self w r.location (congrArg Prod.fst called)
  · cases stalled
  · cases stalled

theorem mayHang_of_runRelay {id : String} {params : Params}
    (inside : .relay id params ∈ r.chain.steps)
    (stalled : (runRelay network w r step id params).2 = .stalled) :
    r.chain.MayHang network r.context r.timeout := by
  unfold runRelay at stalled
  split at stalled
  · cases stalled
  · dsimp only at stalled
    split at stalled
    · cases stalled
    · split at stalled
      · rename_i called
        exact .operator inside rfl w r.location _ params _ (congrArg Prod.fst called)
      · cases stalled
      · cases stalled

theorem mayHang_of_runSink {id : String} (inside : .sink id ∈ r.chain.steps)
    (stalled : (runSink network w r step id).2 = .stalled) :
    r.chain.MayHang network r.context r.timeout := by
  unfold runSink at stalled
  split at stalled
  · cases stalled
  · dsimp only at stalled
    split at stalled
    · rename_i called
      exact .sink inside List.mem_cons_self w r.location _ (congrArg Prod.fst called)
    · cases stalled
    · exact absurd stalled (conclude_ne_stalled _ _ _ _)

theorem mayHang_of_runMerge {sources : List String} {loads : List StoreRef} {id : String}
    {params : Params} (inside : .merge sources loads id params ∈ r.chain.steps)
    (stalled : (runMerge network w r step sources loads id params).2 = .stalled) :
    r.chain.MayHang network r.context r.timeout := by
  unfold runMerge at stalled
  split at stalled
  · unfold runMergeEnd at stalled
    split at stalled
    · exact absurd stalled (stopped_ne_stalled _ _)
    · split at stalled
      · rename_i called
        exact .operator inside rfl w _ _ params _ (congrArg Prod.fst called)
      · cases stalled
      · cases stalled
  · rename_i asked
    split at stalled
    · rename_i called
      exact .source inside (List.mem_of_getElem? asked) w r.location (congrArg Prod.fst called)
    · cases stalled
    · cases stalled

theorem mayHang_of_runFanout {sinks : List String} (inside : .fanout sinks ∈ r.chain.steps)
    (uncalled : r.calls = []) (stalled : (runFanout network w r step sinks).2 = .stalled) :
    r.chain.MayHang network r.context r.timeout := by
  obtain ⟨value, missing⟩ := missing_of_runFanout_stalled stalled
  have answers := (callSinks_answers network w r value sinks).1
  have same : sinkOutcomes network w r value sinks = (callSinks network w r value sinks).1 := by
    unfold sinkOutcomes
    rw [uncalled]
    rfl
  rw [← same] at answers
  obtain ⟨id, named, w₂, at_, never⟩ := exists_answer answers (none_mem_of_mapM_id missing)
  exact .sink inside named w₂ at_ _ never

/-- A turn that is never done waits for something that the chain calls. -/
theorem mayHang_of_stalled (inside : step ∈ r.chain.steps) (uncalled : r.calls = [])
    (stalled : (runStep network w r step).2 = .stalled) :
    r.chain.MayHang network r.context r.timeout := by
  cases step with
  | source id => exact mayHang_of_runSource inside stalled
  | relay id params => exact mayHang_of_runRelay inside stalled
  | store target => exact absurd stalled (runStore_ne_stalled target)
  | load origin => exact absurd stalled (runLoad_ne_stalled origin)
  | merge sources loads id params => exact mayHang_of_runMerge inside stalled
  | sink id => exact mayHang_of_runSink inside stalled
  | fanout sinks => exact mayHang_of_runFanout inside uncalled stalled

/-! ## Runs alone -/

/-- A run is asked for with the context and the timeout that it was made with. -/
theorem Solo.kept (alone : Solo network w₀ origin v s) (running : s.state = .running) :
    s.context = origin.context ∧ s.timeout = origin.timeout := by
  induction alone with
  | begun begins =>
      obtain ⟨_, rfl⟩ := start_eq_ok begins
      exact ⟨rfl, rfl⟩
  | turned before turn ih =>
      obtain ⟨before, deed⟩ := deed_of_advance turn
      rcases deed.passes_or_collects before running with passes | ⟨_, _, collects⟩
      · rw [passes.context, passes.timeout]
        exact ih before
      · rw [collects.same]
        exact ih before

theorem Solo.takeTurns (alone : Solo network w₀ origin v s) (turns : Nat) :
    Solo network w₀ origin (takeTurns network turns v s).1 (takeTurns network turns v s).2 := by
  induction turns generalizing v s with
  | zero => exact alone
  | succ turns ih =>
      unfold Run.takeTurns
      cases turned : advance network v s with
      | none => exact alone
      | some after => exact ih (alone.turned turned)

/-- A run alone comes to where it cannot take another turn. -/
theorem exists_stuck (network : Network) (w₀ : World) (idle : Idle origin) :
    ∃ v s, Solo network w₀ origin v s ∧ advance network v s = none := by
  have begun : ∃ v s, start w₀ origin = .ok (v, s) := by
    rw [start_eq, idle.state]
    exact ⟨_, _, rfl⟩
  obtain ⟨v, s, begun⟩ := begun
  have first : Solo network w₀ origin v s := .begun begun
  exact ⟨_, _, first.takeTurns s.turnsLeft,
    first.stuck_takeTurns idle s.turnsLeft fun _ => Nat.le_refl _⟩

/-- A run that cannot take another turn has ended or waits for something that its chain calls. -/
theorem Solo.isTerminal_or_mayHang (idle : Idle origin) (next : origin.next = 0)
    (alone : Solo network w₀ origin v s) (stuck : advance network v s = none) :
    s.state.isTerminal = true ∨ origin.chain.MayHang network origin.context origin.timeout := by
  obtain ⟨log, way⟩ : ∃ log, Course network (fun _ _ => False) origin log v s := alone.course
  cases state : s.state with
  | completed | broken | failed => exact .inl rfl
  | pending => exact absurd state way.state_ne_pending
  | running =>
      right
      obtain ⟨step, here⟩ := way.exists_step next state
      obtain ⟨context, timeout⟩ := alone.kept state
      rw [← context, ← timeout, ← way.chain_eq]
      have stalled : (runStep network v s step).2 = .stalled := by
        rw [advance_eq state here] at stuck
        cases turn : (runStep network v s step).2 with
        | stalled => rfl
        | partly after | failed after fault | crashed after mishap | passed after shown =>
            rw [turn] at stuck
            cases stuck
      exact mayHang_of_stalled (List.mem_of_getElem? here) (alone.calls_eq_nil idle state) stalled

/-- A run takes all its turns and is closed, or waits for something that its chain calls. -/
theorem closed_or_stalled (network : Network) (w₀ : World) (c : Chain) (scopes : RunScopes)
    (runId : String) (context : Payload) (timeout : Option Timeout) :
    ∃ v s, Solo network w₀ (fresh c scopes runId context timeout) v s ∧
      (s.state.isTerminal = true ∧ run network w₀ (fresh c scopes runId context timeout) =
          (match close v s with
          | .ok (w, r) => .returned w r
          | .error mishap => .raised v s mishap) ∨
        run network w₀ (fresh c scopes runId context timeout) = .stalled v s ∧
          c.MayHang network context timeout) := by
  have idle := idle_fresh c scopes runId context timeout
  obtain ⟨v, s, alone, stuck⟩ := exists_stuck network w₀ idle
  refine ⟨v, s, alone, ?_⟩
  rw [alone.run_eq idle stuck]
  unfold conclusion
  cases terminal : s.state.isTerminal with
  | true =>
      rw [if_pos rfl]
      exact .inl ⟨rfl, rfl⟩
  | false =>
      rw [if_neg Bool.false_ne_true]
      rcases alone.isTerminal_or_mayHang idle rfl stuck with ended | hangs
      · cases terminal.symm.trans ended
      · exact .inr ⟨rfl, hangs⟩

theorem Solo.scopes_eq (alone : Solo network w₀ origin v s) : s.scopes = origin.scopes := by
  obtain ⟨log, way⟩ : ∃ log, Course network (fun _ _ => False) origin log v s := alone.course
  exact way.scopes_eq

theorem Solo.onlyFaults (alone : Solo network w₀ origin v s)
    (provided : Provided origin.chain origin.scopes) (clean : origin.OnlyFaults) : s.OnlyFaults := by
  obtain ⟨log, way⟩ : ∃ log, Course network (fun _ _ => False) origin log v s := alone.course
  obtain ⟨_, path⟩ := way.path
  exact path.onlyFaults provided clean

/-- A run that has an id of its own and all its partitions comes back, having lost its own and with no
error but a fault of the library, or waits for something that its chain calls. -/
theorem returned_or_stalled (network : Network) (w₀ : World) (c : Chain) {scopes : RunScopes}
    (provided : Provided c scopes) (runId : String) (context : Payload)
    (timeout : Option Timeout) :
    (∃ w r, run network w₀ (fresh c scopes runId context timeout) = .returned w r ∧
      r.state.isTerminal = true ∧ r.result.finished = true ∧ r.OnlyFaults ∧
      w.store.slots ⟨.request, scopes.execution⟩ = []) ∨
    (∃ w r, run network w₀ (fresh c scopes runId context timeout) = .stalled w r) ∧
      c.MayHang network context timeout := by
  obtain ⟨v, s, alone, ⟨terminal, ran⟩ | ⟨ran, hangs⟩⟩ :=
    closed_or_stalled network w₀ c scopes runId context timeout
  · have own : s.scopes = scopes := alone.scopes_eq
    have clean := alone.onlyFaults provided (onlyFaults_fresh c scopes runId context timeout)
    obtain ⟨w', closed, store⟩ := close_of_ne (own ▸ provided.1) v
    rw [closed] at ran
    refine .inl ⟨w', s.ended, ran, terminal, rfl, clean, ?_⟩
    rw [store, Store.slots_apply, own]
    exact if_pos rfl
  · exact .inr ⟨⟨v, s, ran⟩, hangs⟩

/-- A run without an id of its own raises when all its turns have been taken. -/
theorem raised_or_stalled (network : Network) (w₀ : World) (c : Chain) {scopes : RunScopes}
    (nameless : scopes.execution = "") (runId : String) (context : Payload)
    (timeout : Option Timeout) :
    ∃ v s, Solo network w₀ (fresh c scopes runId context timeout) v s ∧
      (s.state.isTerminal = true ∧
          run network w₀ (fresh c scopes runId context timeout) =
            .raised v s (.badValue "request scope requires a scope_id") ∨
        run network w₀ (fresh c scopes runId context timeout) = .stalled v s ∧
          c.MayHang network context timeout) := by
  obtain ⟨v, s, alone, ⟨terminal, ran⟩ | stalled⟩ :=
    closed_or_stalled network w₀ c scopes runId context timeout
  · have own : s.scopes.execution = "" := (congrArg RunScopes.execution alone.scopes_eq).trans nameless
    rw [close_of_eq own] at ran
    exact ⟨v, s, alone, .inl ⟨terminal, ran⟩⟩
  · exact ⟨v, s, alone, .inr stalled⟩

end Run

namespace Harness

variable {h : Harness} {id : String} {c : Chain} {scopes : RunScopes}

/-- What keeps a run of a chain from starting for want of a session. -/
def wantsSession (c : Chain) : Mishap :=
  .badValue (s!"chain {Text.quoted c.id} uses session storage; " ++
    "RunScopes.session_id is required")

/-- A run of a chain that uses a session is refused without one. -/
theorem runChain_of_sessionless (idle : h.loop.isIdle = true) (found : h.chains.find? id = some c)
    (uses : c.usesSession = true) (without : scopes.session = none) (context : Payload)
    (timeout : Option Timeout) :
    h.runChain id scopes context timeout = .raised h (.mishap (wantsSession c)) := by
  have refused : requireSession c scopes = .error (wantsSession c) := if_pos ⟨without, uses⟩
  rw [runChain_eq idle, getChain_eq_ok.mpr found]
  dsimp only
  rw [refused]

/-- A run of a defined chain, under an execution id that is not empty and no empty session id if the
chain uses one, is refused with nothing changed; or it comes back with a result that has ended, with no error but
a fault of the library, and the store has forgotten its own partition; or it waits for something that
the chain calls. -/
theorem refused_or_returned (idle : h.loop.isIdle = true) (found : h.chains.find? id = some c)
    (own : scopes.execution ≠ "") (session : c.usesSession = true → scopes.session ≠ some "")
    (context : Payload) (timeout : Option Timeout) :
    (h.runChain id scopes context timeout = .raised h (.mishap (wantsSession c)) ∧
      scopes.session = none ∧ c.usesSession = true) ∨
    (∃ after result, h.runChain id scopes context timeout = .returned after result ∧
      result.state.isTerminal = true ∧ result.finished = true ∧
      (∀ error, result.error = some error → error.kind ≠ .internal) ∧
      after.world.store.slots ⟨.request, scopes.execution⟩ = []) ∨
    (∃ after, h.runChain id scopes context timeout = .stalled after) ∧
      c.MayHang h.network context timeout := by
  by_cases sessionless : c.usesSession = true ∧ scopes.session = none
  · obtain ⟨uses, without⟩ := sessionless
    exact .inl ⟨runChain_of_sessionless idle found uses without context timeout, without, uses⟩
  · have within (uses : c.usesSession = true) : scopes.session ≠ none :=
      fun without => sessionless ⟨uses, without⟩
    have attempt := runChain_of_find? idle found within context timeout
    have provided : Run.Provided c scopes := by
      refine ⟨own, fun uses => ?_⟩
      obtain ⟨given, same⟩ := Option.ne_none_iff_exists'.mp (within uses)
      exact ⟨given, same, fun empty => session uses (same.trans (congrArg some empty))⟩
    rcases Run.returned_or_stalled h.network h.world c provided (h.freshId 32).1 context timeout with
      ⟨w, r, ran, terminal, finished, clean, released⟩ | ⟨⟨w, r, ran⟩, hangs⟩
    · rw [ran] at attempt
      refine .inr (.inl ⟨_, _, attempt, terminal, finished, fun error same internal => ?_, released⟩)
      obtain ⟨kind, fault⟩ := clean error same
      cases fault.symm.trans internal
    · rw [ran] at attempt
      exact .inr (.inr ⟨⟨_, attempt⟩, hangs⟩)

/-- A run without an execution id is not refused for it: it takes all its turns, and raises when it is
closed, so that its result is lost. -/
theorem runChain_of_nameless (idle : h.loop.isIdle = true) (found : h.chains.find? id = some c)
    (within : c.usesSession = true → scopes.session ≠ none) (nameless : scopes.execution = "")
    (context : Payload) (timeout : Option Timeout) :
    ∃ v s, Run.Solo h.network h.world (.fresh c scopes (h.freshId 32).1 context timeout) v s ∧
      (s.state.isTerminal = true ∧ h.runChain id scopes context timeout =
          .raised { h.issuing with world := v }
            (.mishap (.badValue "request scope requires a scope_id")) ∨
        h.runChain id scopes context timeout = .stalled { h.issuing with world := v } ∧
          c.MayHang h.network context timeout) := by
  have attempt := runChain_of_find? idle found within context timeout
  obtain ⟨v, s, alone, ⟨terminal, ran⟩ | ⟨ran, hangs⟩⟩ :=
    Run.raised_or_stalled h.network h.world c nameless (h.freshId 32).1 context timeout
  · rw [ran] at attempt
    exact ⟨v, s, alone, .inl ⟨terminal, attempt⟩⟩
  · rw [ran] at attempt
    exact ⟨v, s, alone, .inr ⟨attempt, hangs⟩⟩

/-- A harness with a chain from a source to a sink and one that notes what it takes in the session. -/
def busy : Harness where
  network := Run.shortcut
  chains := [("direct", Run.direct), ("noting", Run.noting "k")]

/-- A run under an id that is not empty comes back, and nothing is left under the id. -/
theorem refused_or_returned_direct : ∃ after result,
    busy.runChain "direct" ⟨"1", none⟩ .null none = .returned after result ∧
      result.state.isTerminal = true ∧ after.world.store.slots ⟨.request, "1"⟩ = [] := by
  rcases @refused_or_returned busy "direct" Run.direct ⟨"1", none⟩ rfl rfl (by decide)
      (fun _ => by decide) .null none with
    ⟨_, _, uses⟩ | ⟨after, result, ran, terminal, _, _, released⟩ | ⟨⟨_, ran⟩, _⟩
  · cases uses
  · exact ⟨after, result, ran, terminal, released⟩
  · cases ran

/-- Empty ids are not refused: without an execution id the sink has the value before the run raises,
and without a session id the run fails at the store. -/
theorem empty_ids_not_refused :
    (∃ after, busy.runChain "direct" ⟨"", none⟩ .null none =
        .raised after (.mishap (.badValue "request scope requires a scope_id")) ∧
      after.world.callsOf (.sink "shell") = [.null]) ∧
    ∃ after result error, busy.runChain "noting" ⟨"1", some ""⟩ .null none =
        .returned after result ∧ result.error = some error ∧ error.kind = .internal ∧
      error.message = "ValueError: session scope requires a scope_id" ∧
      after.world.callsOf (.source "form") = [.null] := by
  exact ⟨⟨_, rfl, rfl⟩, _, _, _, rfl, rfl, rfl, rfl, rfl⟩

end Harness

end TaintFlow
