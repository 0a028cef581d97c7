import TaintFlow.Proofs.Isolation.View
import TaintFlow.Proofs.Run.Turns

/-!
# Runs in worlds that show them the same

A run without a break makes the same edits of the store and ends in the same way
in all worlds that show it the same at the keys that it reads.  The edits are
confined to the keys that its chain writes, but for the release of its own
partition.
-/

namespace TaintFlow

/-- The edits that a run of a chain makes: of keys that the chain writes, and the release of the
run's own partition. -/
inductive Chain.Confines (c : Chain) (scopes : RunScopes) : Store.Edit → Prop
  | put {p : Partition} {key : String} (writes : c.Writes scopes p key) (value : Value)
      (writtenAt : Int) : Confines c scopes (.put p key value writtenAt)
  | release : Confines c scopes (.release ⟨.request, scopes.execution⟩)

namespace Run

variable {network : Network} {view : Partition → String → Prop} {w v w' : World} {r r' : Run}

theorem confines_of_mem_turnEdits {e : Store.Edit} (inside : e ∈ r.turnEdits) :
    r.chain.Confines r.scopes e := by
  unfold turnEdits at inside
  cases here : r.chain.steps[r.next]? with
  | none =>
      rw [here] at inside
      exact absurd inside List.not_mem_nil
  | some step =>
      rw [here] at inside
      have inStep : e ∈ r.edits step := inside
      unfold edits at inStep
      split at inStep
      · rename_i target
        split at inStep
        · rename_i value p top place
          rw [List.mem_singleton.mp inStep]
          exact .put ⟨_, List.mem_of_getElem? here, target, List.mem_cons_self, place, rfl⟩ _ _
        · exact absurd inStep List.not_mem_nil
      · exact absurd inStep List.not_mem_nil

/-- Turns taken one after the other come to the same in two worlds that show the same. -/
theorem takeTurns_congr (stateless : r.chain.Stateless network)
    (sees : Sees r.chain r.scopes view) (agree : Store.Agree view w.store v.store) (turns : Nat) :
    ∃ edits, (∀ e ∈ edits, r.chain.Confines r.scopes e) ∧
      (takeTurns network turns w r).2 = (takeTurns network turns v r).2 ∧
      (takeTurns network turns w r).2.scopes = r.scopes ∧
      (takeTurns network turns w r).1.store = w.store.applyAll edits ∧
      (takeTurns network turns v r).1.store = v.store.applyAll edits := by
  induction turns generalizing w v r with
  | zero => exact ⟨[], List.forall_mem_nil _, rfl, rfl, rfl, rfl⟩
  | succ turns ih =>
      unfold takeTurns
      cases turned : advance network w r with
      | none =>
          cases turned' : advance network v r with
          | none => exact ⟨[], List.forall_mem_nil _, rfl, rfl, rfl, rfl⟩
          | some after =>
              obtain ⟨w', other, _⟩ := advance_congr stateless sees agree.symm turned'
              cases turned.symm.trans other
      | some after =>
          obtain ⟨w', r'⟩ := after
          obtain ⟨v', turned', store, store'⟩ := advance_congr stateless sees agree turned
          obtain ⟨running, deed⟩ := deed_of_advance turned
          obtain ⟨chain, scopes, _⟩ := deed.frame running
          rw [turned']
          have agree' : Store.Agree view w'.store v'.store := by
            rw [store, store']
            exact agree.applyAll _
          rw [← chain] at stateless
          rw [← chain, ← scopes] at sees
          obtain ⟨edits, confined, same, kept, last, last'⟩ := ih stateless sees agree'
          refine ⟨r.turnEdits ++ edits, ?_, same, kept.trans scopes, ?_, ?_⟩
          · intro e inside
            rcases List.mem_append.mp inside with first | later
            · exact confines_of_mem_turnEdits first
            · rw [← chain, ← scopes]
              exact confined e later
          · rw [Store.applyAll_append, ← store, last]
          · rw [Store.applyAll_append, ← store', last']

/-- Two ends of a run from two stores: the same run ends in the same way after the same edits. -/
inductive Alike (edits : List Store.Edit) (s s' : Store) : End → End → Prop
  | returned {w v : World} {r : Run} (one : w.store = s.applyAll edits)
      (other : v.store = s'.applyAll edits) : Alike edits s s' (.returned w r) (.returned v r)
  | raised {w v : World} {r : Run} {mishap : Mishap} (one : w.store = s.applyAll edits)
      (other : v.store = s'.applyAll edits) :
      Alike edits s s' (.raised w r mishap) (.raised v r mishap)
  | stalled {w v : World} {r : Run} (one : w.store = s.applyAll edits)
      (other : v.store = s'.applyAll edits) : Alike edits s s' (.stalled w r) (.stalled v r)

theorem start_eq (w : World) (r : Run) :
    start w r = (r.state.moveTo .running).map fun state =>
      (w.say ⟨some r.chain.id, none⟩ (.runStarted r.chain.id r.chain.steps.length),
        { r with result := { r.result with state } }) := by
  unfold start
  cases r.state.moveTo .running <;> rfl

/-- A run that starts in one world starts in any. -/
theorem start_congr (v : World) (begun : start w r = .ok (w', r')) :
    ∃ v', start v r = .ok (v', r') ∧ w'.store = w.store ∧ v'.store = v.store := by
  rw [start_eq] at begun ⊢
  cases moved : r.state.moveTo .running with
  | error mishap =>
      rw [moved] at begun
      exact nomatch begun
  | ok state =>
      rw [moved] at begun
      obtain ⟨rfl, rfl⟩ := Prod.mk.inj (Except.ok.inj begun)
      exact ⟨_, rfl, rfl, rfl⟩

/-- A run that has been closed. -/
def ended (r : Run) : Run :=
  { r with result := { r.result with origins := r.origins, finished := true } }

/-- Without an id a run cannot be closed. -/
theorem close_of_eq (nameless : r.scopes.execution = "") (w : World) :
    close w r = .error (.badValue "request scope requires a scope_id") := by
  unfold close
  rw [nameless]
  rfl

/-- Closing a run releases its own partition. -/
theorem close_of_ne (named : r.scopes.execution ≠ "") (w : World) :
    ∃ w', close w r = .ok (w', r.ended) ∧
      w'.store = w.store.apply (.release ⟨.request, r.scopes.execution⟩) := by
  have place : Scope.request.partition (some r.scopes.execution) =
      .ok ⟨.request, r.scopes.execution⟩ := by
    unfold Scope.partition
    exact if_neg named
  unfold close
  rw [place]
  refine ⟨_, rfl, ?_⟩
  rw [World.say_store, World.count_store, World.edit_store]

theorem conclusion_congr {c : Chain} {scopes : RunScopes} (own : r.scopes = scopes)
    {edits : List Store.Edit} {s s' : Store} (confined : ∀ e ∈ edits, c.Confines scopes e)
    (one : w.store = s.applyAll edits) (other : v.store = s'.applyAll edits) :
    ∃ edits, (∀ e ∈ edits, c.Confines scopes e) ∧
      Alike edits s s' (conclusion w r) (conclusion v r) := by
  unfold conclusion
  split
  · by_cases named : r.scopes.execution = ""
    · rw [close_of_eq named, close_of_eq named]
      exact ⟨edits, confined, .raised one other⟩
    · obtain ⟨w', closedHere, store⟩ := close_of_ne named w
      obtain ⟨v', closedThere, store'⟩ := close_of_ne named v
      rw [closedHere, closedThere]
      rw [own] at store store'
      refine ⟨edits ++ [.release ⟨.request, scopes.execution⟩], ?_, .returned ?_ ?_⟩
      · intro e inside
        rcases List.mem_append.mp inside with before | last
        · exact confined e before
        · rw [List.mem_singleton.mp last]
          exact .release
      · rw [store, one, Store.applyAll_append]
        rfl
      · rw [store', other, Store.applyAll_append]
        rfl
  · exact ⟨edits, confined, .stalled one other⟩

/-- A run without a break ends alike in two worlds that show it the same at the keys that it
reads. -/
theorem run_congr (stateless : r.chain.Stateless network) (sees : Sees r.chain r.scopes view)
    (agree : Store.Agree view w.store v.store) :
    ∃ edits, (∀ e ∈ edits, r.chain.Confines r.scopes e) ∧
      Alike edits w.store v.store (run network w r) (run network v r) := by
  unfold run
  rw [start_eq, start_eq]
  cases r.state.moveTo .running with
  | error mishap => exact ⟨[], nofun, .raised rfl rfl⟩
  | ok state =>
      let r₁ : Run := { r with result := { r.result with state } }
      let begun : World → World := fun w =>
        w.say ⟨some r.chain.id, none⟩ (.runStarted r.chain.id r.chain.steps.length)
      obtain ⟨edits, confined, same, scopes, one, other⟩ := takeTurns_congr (w := begun w)
        (v := begun v) (r := r₁) stateless sees agree r₁.turnsLeft
      show ∃ edits, _ ∧ Alike edits w.store v.store
        (conclusion (takeTurns network r₁.turnsLeft (begun w) r₁).1
          (takeTurns network r₁.turnsLeft (begun w) r₁).2)
        (conclusion (takeTurns network r₁.turnsLeft (begun v) r₁).1
          (takeTurns network r₁.turnsLeft (begun v) r₁).2)
      rw [← same]
      exact conclusion_congr scopes confined one other

end Run

end TaintFlow
