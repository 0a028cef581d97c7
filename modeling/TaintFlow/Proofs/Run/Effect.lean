import TaintFlow.Proofs.Harness.Refusal
import TaintFlow.Proofs.Run.Edits

/-!
# What a run leaves in the store

A run without a break writes the active value at each of its store steps, drops
its own partition when it is closed, and changes nothing else in the store.  A
later failure takes nothing back.  This takes operators that do not edit the
store.  The main statement is `run_effect`.
-/

namespace TaintFlow.Run

variable {network : Network} {w w' : World} {r r' : Run} {step : Step}

/-! ## The turns of a run -/

/-- The turns that are taken one after the other, each as the world and the run before it. -/
def visits (network : Network) : Nat → World → Run → List (World × Run)
  | 0, _, _ => []
  | turns + 1, w, r =>
    match advance network w r with
    | some (w', r') => (w, r) :: visits network turns w' r'
    | none => []

/-- The turns of a run without a break. -/
def visited (network : Network) (w : World) (r : Run) : List (World × Run) :=
  match start w r with
  | .ok (w, r) => visits network r.turnsLeft w r
  | .error _ => []

/-- The edits that the steps of some turns make, in order. -/
def editsAt (turns : List (World × Run)) : List Store.Edit :=
  turns.flatMap fun turn => turn.2.turnEdits

/-- Is this the entry of a store step that was done? -/
def isWrite (shown : StepTrace) : Bool := shown.step.kind = .store && shown.error.isNone

/-- The indices of the store steps that were done, as a trace has them. -/
def writesIn (trace : List StepTrace) : List Nat := (trace.filter isWrite).map StepTrace.index

/-- What a run has left of a store, and how its trace tells of what it wrote. -/
structure Effect (network : Network) (w : World) (origin : Run) (w' : World) (r' : Run) : Prop where
  /-- There is no partition under the execution id of the run. -/
  own : w'.store.partitions.has ⟨.request, origin.scopes.execution⟩ = false
  /-- Partitions of other runs are as they were. -/
  others : ∀ id, id ≠ origin.scopes.execution →
    w'.store.partitions.find? ⟨.request, id⟩ = w.store.partitions.find? ⟨.request, id⟩
  /-- Sessions and the process have what they had, with what the run wrote. -/
  kept : ∀ p : Partition, p.scope ≠ .request →
    w'.store.partitions.find? p =
      (w.store.applyAll (editsAt (visited network w origin))).partitions.find? p
  /-- The turns that wrote are the store steps that the trace has as done. -/
  told : writesIn r'.result.trace =
    ((visited network w origin).filter fun turn => !turn.2.turnEdits.isEmpty).map (·.2.next)
  /-- A turn of any other step left the store alone. -/
  still : ∀ turn ∈ visited network w origin, ∃ step w₁ r₁,
    turn.2.chain.steps[turn.2.next]? = some step ∧
      advance network turn.1 turn.2 = some (w₁, r₁) ∧
      (step.kind ≠ .store → w₁.store = turn.1.store)

/-! ## One turn -/

/-- What a run writes in the scope of requests, it writes in its own partition. -/
theorem partition_of_mem_turnEdits {e : Store.Edit} (inside : e ∈ r.turnEdits)
    (request : e.partition.scope = .request) : e.partition = ⟨.request, r.scopes.execution⟩ := by
  cases confines_of_mem_turnEdits inside with
  | release => rfl
  | @put p key writes value writtenAt =>
      obtain ⟨_, _, ref, _, place, _⟩ := writes
      obtain ⟨scope, own⟩ := Scope.partition_eq_ok place
      have same : ref.scope = .request := scope.symm.trans request
      rw [same] at own
      have id : some r.scopes.execution = some p.id := (own nofun).1
      obtain ⟨found, name⟩ := p
      obtain rfl := Option.some.inj id
      obtain rfl : found = .request := request
      rfl

/-- A turn of a store step adds an entry, without an error just if the turn has written. -/
theorem trace_of_store {target : StoreRef} (here : r.chain.steps[r.next]? = some (.store target))
    (turned : advance network w r = some (w', r')) :
    ∃ shown, r'.result.trace = r.result.trace ++ [shown] ∧ shown.index = r.next ∧
      shown.step = .store target ∧ (shown.error = none ↔ r.edits (.store target) ≠ []) := by
  obtain ⟨running, _⟩ := running_of_advance turned
  rw [advance_eq running here] at turned
  change afterTurn (.store target) r (runStore w r (.store target) target).1
    (runStore w r (.store target) target).2 = some (w', r') at turned
  unfold runStore at turned
  cases top : r.top? with
  | none =>
      have none_ : r.edits (.store target) = [] := by simp only [edits, top]
      simp only [top] at turned
      obtain ⟨-, rfl⟩ := Prod.mk.inj (Option.some.inj turned)
      let fault : Fault := ⟨.noActiveValue .store, some r.next⟩
      obtain ⟨index, same, error⟩ := failureEntry_eq r (.store target) fault
      refine ⟨r.failureEntry (.store target) fault, rfl, index, same, ?_⟩
      rw [error, none_]
      exact iff_of_false nofun fun ne => ne rfl
  | some value =>
      simp only [top] at turned
      cases place : target.scope.partition (r.scopes.idFor target.scope) with
      | error mishap =>
          have none_ : r.edits (.store target) = [] := by simp only [edits, top, place]
          simp only [place] at turned
          obtain ⟨-, rfl⟩ := Prod.mk.inj (Option.some.inj turned)
          refine ⟨_, rfl, rfl, rfl, ?_⟩
          rw [none_]
          exact iff_of_false nofun fun ne => ne rfl
      | ok p =>
          have some_ : r.edits (.store target) ≠ [] := by simp [edits, top, place]
          simp only [place] at turned
          have still : (r.noted target value.forward.labels).state = .running := running
          have passed := turned.symm.trans (afterTurn_passed still rfl)
          obtain ⟨-, rfl⟩ := Prod.mk.inj (Option.some.inj passed)
          exact ⟨_, passOn_trace _ _, rfl, rfl, iff_of_true rfl some_⟩

theorem writesIn_append (trace more : List StepTrace) :
    writesIn (trace ++ more) = writesIn trace ++ writesIn more := by
  unfold writesIn
  rw [List.filter_append, List.map_append]

/-- A turn adds its step to those that the trace has as written, just if it has written. -/
theorem writesIn_of_advance (turned : advance network w r = some (w', r')) :
    writesIn r'.result.trace =
      writesIn r.result.trace ++ if r.turnEdits.isEmpty then [] else [r.next] := by
  obtain ⟨_, step, here⟩ := running_of_advance turned
  by_cases store : step.kind = .store
  · obtain ⟨target, rfl⟩ : ∃ target, step = .store target := by
      cases step with
      | store target => exact ⟨target, rfl⟩
      | source | relay | load | fanout | merge | sink => cases store
    obtain ⟨shown, trace, index, same, wrote⟩ := trace_of_store here turned
    have made : r.turnEdits = r.edits (.store target) := by
      unfold turnEdits
      rw [here]
      rfl
    rw [trace, writesIn_append, made]
    cases error : shown.error with
    | none =>
        have some_ := wrote.mp error
        simp [writesIn, isWrite, same, error, index, some_, Step.kind]
    | some what =>
        have none_ : r.edits (.store target) = [] := by
          by_contra some_
          cases error.symm.trans (wrote.mpr some_)
        simp [writesIn, isWrite, same, error, none_]
  · rw [turnEdits_of_other here store]
    rcases advance_records here turned with ⟨unwritten, _⟩ | ⟨shown, records, _⟩
    · rw [unwritten.result]
      simp
    · rw [records.trace, writesIn_append]
      simp [writesIn, isWrite, records.step, store]

/-! ## The whole run -/

/-- Turns taken one after the other make the edits of their steps, and no others. -/
theorem takeTurns_visits (untouching : Untouching network.engine r.chain) (turns : Nat) :
    (takeTurns network turns w r).1.store = w.store.applyAll (editsAt (visits network turns w r)) ∧
    (takeTurns network turns w r).2.scopes = r.scopes ∧
    writesIn (takeTurns network turns w r).2.result.trace = writesIn r.result.trace ++
      ((visits network turns w r).filter fun turn => !turn.2.turnEdits.isEmpty).map (·.2.next) ∧
    ∀ turn ∈ visits network turns w r, turn.2.chain = r.chain ∧ turn.2.scopes = r.scopes ∧
      (advance network turn.1 turn.2).isSome = true := by
  induction turns generalizing w r with
  | zero =>
      refine ⟨rfl, rfl, ?_, fun _ inside => absurd inside List.not_mem_nil⟩
      simp only [takeTurns, visits, List.filter_nil, List.map_nil, List.append_nil]
  | succ turns ih =>
      unfold takeTurns visits
      cases turned : advance network w r with
      | none =>
          refine ⟨rfl, rfl, ?_, fun _ inside => absurd inside List.not_mem_nil⟩
          simp only [List.filter_nil, List.map_nil, List.append_nil]
      | some after =>
          obtain ⟨w₁, r₁⟩ := after
          obtain ⟨running, deed⟩ := deed_of_advance turned
          obtain ⟨chain, scopes, _⟩ := deed.frame running
          have store := advance_store untouching turned
          have writes := writesIn_of_advance turned
          obtain ⟨stores, own, told, each⟩ := @ih w₁ r₁ (chain ▸ untouching)
          refine ⟨?_, own.trans scopes, ?_, ?_⟩
          · show _ = w.store.applyAll (r.turnEdits ++ editsAt (visits network turns w₁ r₁))
            rw [Store.applyAll_append, ← store]
            exact stores
          · dsimp only
            rw [told, writes]
            cases empty : r.turnEdits.isEmpty with
            | true => simp [empty]
            | false => simp [empty]
          · intro turn inside
            rcases List.mem_cons.mp inside with rfl | later
            · exact ⟨rfl, rfl, by rw [turned]; rfl⟩
            · obtain ⟨same, place, goes⟩ := each turn later
              exact ⟨same.trans chain, place.trans scopes, goes⟩

/-- A run that has been closed has had its own partition released, and nothing else. -/
theorem close_store {s : Run} {v : World} (closed : close v s = .ok (w', r')) :
    r' = s.ended ∧ w'.store = v.store.apply (.release ⟨.request, s.scopes.execution⟩) := by
  by_cases named : s.scopes.execution = ""
  · rw [close_of_eq named] at closed
    cases closed
  · obtain ⟨w₁, same, store⟩ := close_of_ne named v
    obtain ⟨rfl, rfl⟩ := Prod.mk.inj (Except.ok.inj (closed.symm.trans same))
    exact ⟨rfl, store⟩

/-- A run that comes back has taken its turns and has been closed. -/
theorem returned_eq {origin : Run} (ran : run network w origin = .returned w' r') :
    ∃ w₁ r₁, start w origin = .ok (w₁, r₁) ∧
      r' = (takeTurns network r₁.turnsLeft w₁ r₁).2.ended ∧
      w'.store = (takeTurns network r₁.turnsLeft w₁ r₁).1.store.apply
        (.release ⟨.request, (takeTurns network r₁.turnsLeft w₁ r₁).2.scopes.execution⟩) := by
  unfold run at ran
  cases begun : start w origin with
  | error mishap =>
      rw [begun] at ran
      cases ran
  | ok first =>
      obtain ⟨w₁, r₁⟩ := first
      rw [begun] at ran
      refine ⟨w₁, r₁, rfl, ?_⟩
      dsimp only at ran
      unfold conclusion at ran
      split at ran
      · split at ran
        · rename_i closed
          obtain ⟨rfl, rfl⟩ := End.returned.inj ran
          exact close_store closed
        · cases ran
      · cases ran

/-- A run that comes back has the effect that its turns tell. -/
theorem effect_of_returned {chain : Chain} {scopes : RunScopes}
    (untouching : Untouching network.engine chain) {runId : String} {context : Payload}
    {timeout : Option Timeout}
    (ran : run network w (fresh chain scopes runId context timeout) = .returned w' r') :
    Effect network w (fresh chain scopes runId context timeout) w' r' := by
  obtain ⟨w₁, r₁, begun, rfl, store⟩ := returned_eq ran
  have turns : visited network w (fresh chain scopes runId context timeout) =
      visits network r₁.turnsLeft w₁ r₁ := by
    unfold visited
    rw [begun]
  obtain ⟨_, _, first, _⟩ := start_congr w begun
  obtain ⟨chain_eq, scopes_eq, trace⟩ :
      r₁.chain = chain ∧ r₁.scopes = scopes ∧ r₁.result.trace = [] := by
    rw [(start_eq_ok begun).2]
    exact ⟨rfl, rfl, rfl⟩
  obtain ⟨stores, own, told, each⟩ :=
    takeTurns_visits (w := w₁) (r := r₁) (chain_eq ▸ untouching) r₁.turnsLeft
  rw [own, scopes_eq, stores, first, ← turns] at store
  -- every partition that the run writes is its own, if it is one of a request
  have within {e : Store.Edit} (inside : e ∈ editsAt (visited network w
      (fresh chain scopes runId context timeout))) (request : e.partition.scope = .request) :
      e.partition = ⟨.request, scopes.execution⟩ := by
    obtain ⟨turn, visit, edit⟩ := List.mem_flatMap.mp inside
    rw [turns] at visit
    have place := partition_of_mem_turnEdits edit request
    rwa [(each turn visit).2.1, scopes_eq] at place
  refine ⟨?_, fun id other => ?_, fun p other => ?_, ?_, fun turn visit => ?_⟩
  · rw [store]
    have gone := Assoc.find?_erase_self (⟨.request, scopes.execution⟩ : Partition)
      (w.store.applyAll (editsAt (visited network w
        (fresh chain scopes runId context timeout)))).partitions
    exact congrArg Option.isSome gone
  · rw [store, Store.find?_apply_of_ne, Store.find?_applyAll_of_ne]
    · intro e inside same
      have own := within inside (congrArg Partition.scope same)
      exact other (congrArg Partition.id (same.symm.trans own))
    · intro same
      exact other (congrArg Partition.id same).symm
  · rw [store, Store.find?_apply_of_ne]
    intro same
    exact other (congrArg Partition.scope same).symm
  · rw [turns]
    rw [trace] at told
    exact told
  · rw [turns] at visit
    obtain ⟨chain', _, goes⟩ := each turn visit
    obtain ⟨⟨w₂, r₂⟩, turned⟩ := Option.isSome_iff_exists.mp goes
    obtain ⟨_, step, here⟩ := running_of_advance turned
    refine ⟨step, w₂, r₂, here, turned, fun other => ?_⟩
    rw [← chain_eq, ← chain'] at untouching
    rw [advance_store untouching turned, turnEdits_of_other here other]
    rfl

/-- **The effect of a run on the store.**  A run without a break, under an id of its own and with
operators that do not edit the store, comes back however it ends, unless something that it calls
never does; and then the store is as it was but for the values that its store steps wrote, less the
run's own partition. -/
theorem run_effect {chain : Chain} {scopes : RunScopes} (named : scopes.execution ≠ "")
    (untouching : Untouching network.engine chain) (w : World) (runId : String) (context : Payload)
    (timeout : Option Timeout) :
    (∃ w' r', run network w (fresh chain scopes runId context timeout) = .returned w' r' ∧
      r'.state.isTerminal = true ∧
      Effect network w (fresh chain scopes runId context timeout) w' r') ∨
    (∃ w' r', run network w (fresh chain scopes runId context timeout) = .stalled w' r') ∧
      chain.MayHang network context timeout := by
  obtain ⟨v, s, alone, ⟨terminal, ran⟩ | ⟨ran, hangs⟩⟩ :=
    closed_or_stalled network w chain scopes runId context timeout
  · have own : s.scopes = scopes := alone.scopes_eq
    obtain ⟨w', closed, _⟩ := close_of_ne (own ▸ named) v
    rw [closed] at ran
    exact .inl ⟨w', s.ended, ran, terminal, effect_of_returned untouching ran⟩
  · exact .inr ⟨⟨v, s, ran⟩, hangs⟩

/-- A run that fails after its store step has noted what it took, and the note stays. -/
theorem run_effect_sinkless : ∃ w' r',
    run sinkless {} (fresh (noting "k") ⟨"1", some "s"⟩ "1") = .returned w' r' ∧
      r'.state = .failed ∧ writesIn r'.result.trace = [1] ∧
      w'.store.slot? ⟨.session, "s"⟩ "k" =
        some (.live ⟨.null, .singleton { origin := "form", category := .httpBody }, 1⟩ 1) := by
  have untouching : Untouching sinkless.engine (noting "k") := by
    intro id inside
    cases inside
  have named : (⟨"1", some "s"⟩ : RunScopes).execution ≠ "" := by decide
  rcases run_effect named untouching {} "1" .null none with
    ⟨w', r', ran, _, effect⟩ | ⟨⟨_, _, ran⟩, _⟩
  · obtain ⟨v, s, ended, state, told⟩ : ∃ v s,
        run sinkless {} (fresh (noting "k") ⟨"1", some "s"⟩ "1") = .returned v s ∧
          s.state = .failed ∧ writesIn s.result.trace = [1] :=
      ⟨_, _, rfl, rfl, rfl⟩
    obtain ⟨rfl, rfl⟩ := End.returned.inj (ran.symm.trans ended)
    refine ⟨w', r', ran, state, told, ?_⟩
    unfold Store.slot? Store.slots
    rw [effect.kept ⟨.session, "s"⟩ nofun]
    rfl
  · cases ran

end TaintFlow.Run
