import TaintFlow.Proofs.Run.Progress

/-!
# Validation and execution

A chain is accepted exactly if it can be executed: if everything that it relies
on does its part, a run of it comes to its last step and ends there, and nothing
stops it before.  The two directions are `concludes_of_valid` and
`valid_of_concludes`; what is missing for an equivalence, a run in which
everything does its part, is made in `Proofs.Run.Ideal`.
-/

namespace TaintFlow.Run

variable {network : Network} {rely : World → World → Prop} {chain : Chain} {scopes : RunScopes}
  {runId : String} {context : Payload} {timeout : Option Timeout} {log : List Event} {w : World}
  {r : Run}

/-- Everything that a run relied on did its part. -/
def Smooth (log : List Event) : Prop := ∀ i, .refused i ∉ log

/-- The run has ended at its last step, and no step was given up. -/
structure Concludes (c : Chain) (log : List Event) (r : Run) : Prop where
  terminal : r.state.isTerminal = true
  atLast : r.next = c.lastIndex
  notStopped : ∀ i failure, .stopped i failure ∉ log

theorem Smooth.of_append {log more : List Event} (smooth : Smooth (log ++ more)) : Smooth log :=
  fun i inside => smooth i (List.mem_append_left _ inside)

theorem Smooth.willing {step : Step} (smooth : Smooth (log ++ report network w r))
    (here : r.chain.steps[r.next]? = some step) : refuses network w r step = false := by
  cases declined : refuses network w r step with
  | false => rfl
  | true =>
      have inside : .refused r.next ∈ report network w r :=
        mem_report.mpr ⟨step, here, .inr (.inr (.inl ⟨rfl, declined⟩))⟩
      exact absurd (List.mem_append_right _ inside) (smooth r.next)

/-- A run of an accepted chain is ready for its next step. -/
theorem Course.ready {step : Step} (valid : chain.validate network = .ok ())
    (provided : Provided chain scopes)
    (way : Course network rely (fresh chain scopes runId context timeout) log w r)
    (running : r.state = .running) (here : r.chain.steps[r.next]? = some step) :
    Ready network r step := by
  have same : r.chain = chain := way.chain_eq
  have depth := way.depthBefore_eq rfl rfl rfl rfl rfl running
  rw [same] at depth
  obtain ⟨before, after, earlier, done, _⟩ := Chain.depthAfter_of_valid valid (same ▸ here)
  obtain rfl := Option.some.inj (depth.symm.trans earlier)
  refine ⟨here, ⟨_, after, Chain.depthAfter_eq_ok.mp done⟩, ?_, way.gathers rfl rfl running,
    way.poised rfl running⟩
  rw [same, way.scopes_eq]
  exact provided

/-- If a chain is accepted and everything does its part, its run ends at the last step. -/
theorem concludes_of_valid (valid : chain.validate network = .ok ())
    (provided : Provided chain scopes)
    (way : Course network rely (fresh chain scopes runId context timeout) log w r)
    (smooth : Smooth log) (terminal : r.state.isTerminal = true) : Concludes chain log r := by
  have both : (∀ i failure, .stopped i failure ∉ log) ∧
      (r.state.isTerminal = true → r.next = chain.lastIndex) := by
    refine way.keeps (fun log r => Smooth log → (∀ i failure, .stopped i failure ∉ log) ∧
      (r.state.isTerminal = true → r.next = chain.lastIndex)) ?_ ?_ ?_ ?_ smooth
    · exact fun _ _ => ⟨fun _ _ inside => absurd inside List.not_mem_nil, nofun⟩
    · intro log w r w' r' before running ih deed smooth
      obtain ⟨step, here⟩ := deed.here running
      have ready := before.ready valid provided running here
      have willing := smooth.willing here
      have same : r.chain = chain := before.chain_eq
      refine ⟨?_, fun terminal => ?_⟩
      · intro i failure inside
        rcases List.mem_append.mp inside with inLog | inReport
        · exact (ih smooth.of_append).1 i failure inLog
        · exact not_stopped_of_goesWell here (runStep_goesWell ready willing) inReport
      · rcases deed.cases_of_running running with passes | ⟨_, _, collects⟩ | ⟨_, _, _, judges⟩ | ends
        · rw [passes.state_of_valid (same.symm ▸ valid)] at terminal
          exact nomatch terminal
        · rw [collects.same] at terminal
          exact nomatch running ▸ terminal
        · rw [judges.same, ← same]
          exact (judges.atLast (same.symm ▸ valid)).1
        · exact nomatch willing.symm.trans (ends.refuses ready)
    · intro log w r _ _ _ _ _ _ _ running ih _ _ _ smooth
      refine ⟨?_, fun terminal => nomatch running ▸ terminal⟩
      intro i failure inside
      rcases List.mem_append.mp inside with inLog | inReadings
      · exact (ih smooth.of_append).1 i failure inLog
      · obtain ⟨_, _, other⟩ := read_of_mem_pendingReadings inReadings
        exact nomatch other
    · intro _ _ _ _ _ _ ih smooth
      exact ih smooth
  exact ⟨terminal, both.2 terminal, both.1⟩

/-- A run of an accepted chain that is going can take its turn unless something that the turn relies
on does not do its part. -/
theorem refuses_of_stalled (valid : chain.validate network = .ok ())
    (provided : Provided chain scopes)
    (way : Course network rely (fresh chain scopes runId context timeout) log w r)
    (running : r.state = .running) (stalled : advance network w r = none) :
    .refused r.next ∈ report network w r := by
  obtain ⟨step, here⟩ := way.exists_step rfl running
  have ready := way.ready valid provided running here
  cases declined : refuses network w r step with
  | true => exact mem_report.mpr ⟨step, here, .inr (.inr (.inl ⟨rfl, declined⟩))⟩
  | false =>
      obtain ⟨w', r', turned⟩ := advance_of_goesWell running here (runStep_goesWell ready declined)
      exact nomatch stalled.symm.trans turned

/-- The last sinks have what validation wants them to have. -/
theorem Judges.allows {step : Step} {value : Value} {outcomes : List (Except Fault SinkResult)}
    {w' : World} {r' : Run} (judges : Judges network w r step value outcomes w' r')
    (poised : Poised network r) :
    Chain.Allows network true r.stack.length r.stack.length step ∧
      step.kind.concludes = true := by
  have some_ := one_le_length_of_top judges.top
  have answers := poised.answers_of_handed judges.here judges.top judges.handed
  have registered := registered_of_answers answers judges.accepted
  rcases judges.handed.sink_or_fanout with ⟨id, rfl⟩ | ⟨sinks, rfl⟩
  · exact ⟨⟨some_, rfl, registered id List.mem_cons_self, rfl⟩, rfl⟩
  · exact ⟨⟨some_, registered, rfl⟩, rfl⟩

/-- A chain is accepted if a run of it, in which everything did its part, has ended at the last
step. -/
theorem valid_of_concludes
    (way : Course network rely (fresh chain scopes runId context timeout) log w r)
    (smooth : Smooth log) (concludes : Concludes chain log r) :
    chain.validate network = .ok () := by
  refine way.keeps (fun log r => Smooth log → Concludes chain log r →
    chain.validate network = .ok ()) ?_ ?_ ?_ ?_ smooth concludes
  · exact fun _ _ concludes => nomatch concludes.terminal
  · intro log w r w' r' before running _ deed smooth concludes
    have same : r.chain = chain := before.chain_eq
    rcases deed.cases_of_running running with passes | ⟨_, _, collects⟩ | ⟨_, _, _, judges⟩ | ends
    · have terminal := concludes.terminal
      have atLast := concludes.atLast
      have count := chain.length_eq
      rw [passes.next] at atLast
      rw [passes.state, same, if_neg (by omega)] at terminal
      exact nomatch terminal
    · have terminal := concludes.terminal
      rw [collects.same] at terminal
      exact nomatch running ▸ terminal
    · have last : r.next = chain.lastIndex := by
        have atLast := concludes.atLast
        rw [judges.same] at atLast
        exact atLast
      have depth := before.depthBefore_eq rfl rfl rfl rfl rfl running
      obtain ⟨allows, ends⟩ := judges.allows (before.poised rfl running)
      have here := judges.here
      rw [same, last] at here depth
      obtain rfl := Option.some.inj (chain.steps_lastIndex.symm.trans here)
      exact Chain.valid_of_last depth allows ends
    · rcases ends.cause with refused | ⟨failure, stopped⟩
      · exact absurd (List.mem_append_right _ refused) (smooth _)
      · exact absurd (List.mem_append_right _ stopped) (concludes.notStopped _ _)
  · intro _ _ _ _ _ _ _ _ _ _ running _ _ _ _ _ concludes
    exact nomatch running ▸ concludes.terminal
  · intro _ _ _ _ _ running _ _ concludes
    exact nomatch running ▸ concludes.terminal

end TaintFlow.Run
