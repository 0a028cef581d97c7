import TaintFlow.Proofs.Invocations.Concert
import TaintFlow.Proofs.Isolation.Interleaving

/-!
# Stretches of a concert

A run that nobody breaks into acts several times in a row: from its start to its
end, or as long as it does not have to wait.  What becomes of it is a stretch of
every concert that it belongs to.
-/

namespace TaintFlow.Run

variable {network : Network} {v w w' w₀ : World} {s r r' : Run} {asked more : List String}
  {runs : List Run} {i : Nat}

/-! ## Acts in a row -/

/-- Acts of a run that nobody breaks into, and the sources that it asks by them. -/
inductive Acts (network : Network) (w : World) (r : Run) : List String → World → Run → Prop
  | here : Acts network w r [] w r
  | acted {asked more : List String} {w₁ w' : World} {r₁ r' : Run}
      (before : Acts network w r asked w₁ r₁) (act : Act network w₁ r₁ more w' r') :
      Acts network w r (asked ++ more) w' r'

theorem Acts.accredited (acts : Acts network v s asked w r) (accredited : Accredited network v s) :
    Accredited network w r := by
  induction acts with
  | here => exact accredited
  | acted before act ih => exact ih.move act.move

/-- A run of a concert acts while the others wait. -/
theorem Concert.acts (concert : Concert network w₀ asked v runs) (here : runs[i]? = some s)
    (acts : Acts network v s more w r) :
    Concert network w₀ (asked ++ more) w (runs.set i r) := by
  induction acts with
  | here =>
      obtain ⟨less, rfl⟩ := List.getElem?_eq_some_iff.mp here
      rw [List.set_getElem_self, List.append_nil]
      exact concert
  | acted before act ih =>
      have less := (List.getElem?_eq_some_iff.mp here).1
      have further := ih.acted (List.getElem?_set_self less) act
      rw [List.set_set, List.append_assoc] at further
      exact further

/-- Several runs of accepted chains join. -/
theorem Concert.joinAll (concert : Concert network w₀ asked w runs) {rs : List Run}
    (fresh_ : ∀ r ∈ rs, ∃ chain scopes runId context timeout,
      chain.validate network = .ok () ∧ r = fresh chain scopes runId context timeout) :
    Concert network w₀ asked w (runs ++ rs) := by
  induction rs generalizing runs with
  | nil =>
      rw [List.append_nil]
      exact concert
  | cons first rest ih =>
      obtain ⟨chain, scopes, runId, context, timeout, valid, rfl⟩ := fresh_ first List.mem_cons_self
      have others := ih (concert.joined valid scopes runId context timeout) fun r inRest =>
        fresh_ r (List.mem_cons_of_mem _ inRest)
      rw [List.append_assoc] at others
      exact others

/-! ## A run from start to end -/

theorem acts_of_takeTurns (turns : Nat) (acts : Acts network v s asked w r) :
    (∃ more, Acts network v s more (takeTurns network turns w r).1
      (takeTurns network turns w r).2) ∧
      (takeTurns network turns w r).2.result.finished = r.result.finished := by
  induction turns generalizing asked w r with
  | zero => exact ⟨⟨asked, acts⟩, rfl⟩
  | succ turns ih =>
      unfold takeTurns
      cases turned : advance network w r with
      | none => exact ⟨⟨asked, acts⟩, rfl⟩
      | some after =>
          obtain ⟨w₁, r₁⟩ := after
          obtain ⟨further, finished⟩ := ih (acts.acted (.turns turned))
          exact ⟨further, finished.trans (finished_of_advance turned)⟩

/-- A run that returns acts from its start to its end, where it is closed. -/
theorem acts_of_run (unclosed : r.result.finished = false)
    (ran : run network w r = .returned w' r') :
    (∃ asked, Acts network w r asked w' r') ∧ r'.result.finished = true := by
  unfold run at ran
  split at ran
  · cases ran
  · rename_i w₁ r₁ begun
    have started : Acts network w r _ w₁ r₁ := .acted .here (.begins begun)
    obtain ⟨⟨asked, acts⟩, finished⟩ := acts_of_takeTurns r₁.turnsLeft started
    have open_ : r₁.result.finished = false := by
      rw [(start_eq_ok begun).2]
      exact unclosed
    unfold conclusion at ran
    dsimp only at ran
    split at ran
    · rename_i terminal
      split at ran
      · rename_i closed
        obtain ⟨rfl, rfl⟩ := End.returned.inj ran
        exact ⟨⟨_, acts.acted (.closes terminal (finished.trans open_) closed)⟩,
          (finished_of_close closed).1⟩
      · cases ran
    · cases ran

/-- **A run that returns alone is a part of the concert.**  So every sequence of such runs is one. -/
theorem Concert.run (concert : Concert network w₀ asked w runs) {chain : Chain}
    (valid : chain.validate network = .ok ()) {scopes : RunScopes} {runId : String}
    {context : Payload} {timeout : Option Timeout}
    (ran : Run.run network w (fresh chain scopes runId context timeout) = .returned w' r') :
    r'.result.finished = true ∧ ∃ more, Concert network w₀ (asked ++ more) w' (runs ++ [r']) := by
  obtain ⟨⟨more, acts⟩, finished⟩ := acts_of_run rfl ran
  have joined := concert.joined valid scopes runId context timeout
  have after := joined.acts List.getElem?_concat_length acts
  rw [List.set_append_right _ _ (Nat.le_refl _), Nat.sub_self, List.set_cons_zero] at after
  exact ⟨finished, more, after⟩

/-! ## As long as a run does not have to wait -/

/-- A run has come this far by acts that nobody has broken into: to where it waits, with nobody called,
or to where several sinks are to be called, or to its end. -/
def Progress.Performed (network : Network) (w : World) (r : Run) : Progress → Prop
  | .waiting w' r' _ =>
    (∃ asked, Acts network w r asked w' r') ∧ r'.state = .running ∧ r'.calls = []
  | .delivering w' r' =>
    (∃ asked, Acts network w r asked w' r') ∧ r'.state = .running ∧ ∀ call ∈ r'.calls, call = .due
  | .ended (.returned w' r') => (∃ asked, Acts network w r asked w' r') ∧ r'.result.finished = true
  | .ended (.raised w' r' _) | .ended (.stalled w' r') => ∃ asked, Acts network w r asked w' r'

theorem conclusion_performed (acts : Acts network v s asked w r)
    (unclosed : r.result.finished = false) :
    (Progress.ended (conclusion w r)).Performed network v s := by
  unfold conclusion
  split
  · rename_i terminal
    split
    · rename_i closed
      exact ⟨⟨_, acts.acted (.closes terminal unclosed closed)⟩, (finished_of_close closed).1⟩
    · exact ⟨_, acts⟩
  · exact ⟨_, acts⟩

theorem takeStretch_performed (turns : Nat) (acts : Acts network v s asked w r)
    (accredited : Accredited network v s) (unclosed : r.result.finished = false)
    (uncalled : r.state = .running → r.calls = []) :
    (takeStretch network turns w r).Performed network v s := by
  induction turns generalizing asked w r with
  | zero => exact conclusion_performed acts unclosed
  | succ turns ih =>
      unfold takeStretch
      split
      · rename_i running
        -- What has been prepared may have been read ahead.
        obtain ⟨asked', ready, running', unclosed', uncalled'⟩ : ∃ asked',
            Acts network v s asked' w (prepare network w r).1 ∧
              (prepare network w r).1.state = .running ∧
              (prepare network w r).1.result.finished = false ∧
              (prepare network w r).1.calls = [] := by
          rcases prepare_run network w r with same | ⟨_, _, _, _, _, here, named, read⟩
          · rw [same]
            exact ⟨asked, acts, running, unclosed, uncalled running⟩
          · refine ⟨_, acts.acted (.readsAhead running here named read), ?_⟩
            rw [mergeInputs_run read]
            exact ⟨running, unclosed, uncalled running⟩
        split
        · refine ⟨⟨_, acts.acted (.summons running (uncalled running))⟩, running, ?_⟩
          intro call inside
          obtain ⟨_, _, rfl⟩ := List.mem_map.mp inside
          rfl
        · rename_i prepared
          rw [prepared] at ready running' uncalled'
          exact ⟨⟨asked', ready⟩, running', uncalled'⟩
        · rename_i prepared
          rw [prepared] at ready running' unclosed'
          split
          · rename_i turned
            have poised := (ready.accredited accredited).poised running'
            exact ih (ready.acted (.turns turned)) ((finished_of_advance turned).trans unclosed')
              (calls_of_advance poised turned)
          · exact ⟨asked', ready⟩
      · exact conclusion_performed acts unclosed

/-- A run that goes on acts as long as it does not have to wait. -/
theorem goOn_performed (accredited : Accredited network w r) (going : r.state.isTerminal = false) :
    (r.goOn network w).Performed network w r := by
  have unclosed := accredited.unclosed going
  unfold Run.goOn
  split
  · rename_i pending
    unfold setOut
    split
    · rename_i begun
      refine takeStretch_performed _ (.acted .here (.begins begun)) accredited ?_ fun _ => ?_
      · rw [(start_eq_ok begun).2]
        exact unclosed
      · rw [(start_eq_ok begun).2]
        exact accredited.uncalled pending
    · exact ⟨[], .here⟩
  · unfold Run.resume
    split
    · rename_i turned
      have poised := accredited.poised (running_of_advance turned).1
      exact takeStretch_performed _ (.acted .here (.turns turned)) accredited
        ((finished_of_advance turned).trans unclosed) (calls_of_advance poised turned)
    · exact ⟨[], .here⟩

end TaintFlow.Run
