import TaintFlow.Proofs.Run.Move
import TaintFlow.Proofs.Run.Progress

/-!
# What ends a run

Where a run has a partition for every key that its chain names, nothing but a
fault of the library ends it before its last step, however it is interleaved
with others.  Where it has none, the step that needs it crashes.  The main
statement is `Path.onlyFaults`.
-/

namespace TaintFlow.Run

variable {network : Network} {rely : World → World → Prop} {w w₀ w' : World} {r r' : Run}
  {step : Step}

/-- The error of a run, if there is one, is a fault of the library. -/
def OnlyFaults (r : Run) : Prop :=
  ∀ error, r.result.error = some error → ∃ kind, error.kind = .fault kind

theorem onlyFaults_fresh (chain : Chain) (scopes : RunScopes) (runId : String) (context : Payload)
    (timeout : Option Timeout) : (fresh chain scopes runId context timeout).OnlyFaults := by
  intro error same
  have absent : (none : Option ErrorRecord) = some error := same
  cases absent

/-- A turn that does not crash and leaves no error but a fault of the library. -/
def Turn.OnlyFaults : Turn → Prop
  | .stalled | .failed .. => True
  | .partly after => after.OnlyFaults
  | .crashed .. => False
  | .passed after _ => after.OnlyFaults

/-- The run has partitions for these keys. -/
def HasPlaces (scopes : RunScopes) (refs : List StoreRef) : Prop :=
  ∀ ref ∈ refs, ∃ p, ref.scope.partition (scopes.idFor ref.scope) = .ok p

/-! ## Reading where there is a partition -/

theorem load_eq_fault {store : Store} {ref : StoreRef} {failure : Failure}
    (place : ∃ p, ref.scope.partition (r.scopes.idFor ref.scope) = .ok p)
    (read : load network store r ref = .error failure) : ∃ fault, failure = .fault fault := by
  obtain ⟨p, place⟩ := place
  unfold load at read
  rcases Except.bind_eq_error.mp read with none | ⟨_, _, read⟩
  · rw [place] at none
    cases none
  · rcases Except.bind_eq_error.mp read with absent | ⟨value, _, checked⟩
    · obtain ⟨fault, _, same⟩ := Except.mapError_eq_error.mp absent
      exact ⟨fault, same.symm⟩
    · dsimp only at checked
      split at checked
      · split at checked
        · rcases Except.bind_eq_error.mp checked with lost | ⟨_, _, done⟩
          · obtain ⟨fault, _, same⟩ := Except.mapError_eq_error.mp lost
            exact ⟨fault, same.symm⟩
          · cases done
        · cases checked
      · cases checked

theorem loadAll_eq_fault {store : Store} {refs : List StoreRef} {values : List Value}
    {failure : Failure} {r' : Run} (places : HasPlaces r.scopes refs)
    (read : loadAll network store r refs values = .error (failure, r')) :
    ∃ fault, failure = .fault fault := by
  induction refs generalizing r values with
  | nil => cases read
  | cons ref rest ih =>
      unfold loadAll at read
      cases first : load network store r ref with
      | error failure' =>
          rw [first] at read
          obtain ⟨rfl, _⟩ := Prod.mk.inj (Except.error.inj read)
          exact load_eq_fault (places ref List.mem_cons_self) first
      | ok pair =>
          obtain ⟨value, r₁⟩ := pair
          rw [first] at read
          dsimp only at read
          obtain ⟨rfl, _⟩ := load_eq_ok first
          have left : HasPlaces (r.entered value.labels).scopes rest := fun one inRest =>
            places one (List.mem_cons_of_mem ref inRest)
          exact ih left read

theorem mergeInputs_eq_fault {store : Store} {loads : List StoreRef} {failure : Failure} {r' : Run}
    (places : HasPlaces r.scopes loads)
    (read : mergeInputs network store r loads = .error (failure, r')) :
    ∃ fault, failure = .fault fault := by
  unfold mergeInputs at read
  split at read
  · cases read
  · split at read
    · cases read
    · rename_i _ same
      obtain rfl := Except.error.inj read
      exact loadAll_eq_fault places same

/-! ## Turns -/

theorem Turn.onlyFaults_stopped {r₁ : Run} {failure : Failure}
    (known : ∃ fault, failure = .fault fault) : (r₁.stopped failure).OnlyFaults := by
  obtain ⟨fault, rfl⟩ := known
  trivial

theorem runSource_onlyFaults (clean : r.OnlyFaults) (id : String) :
    (runSource network w r step id).2.OnlyFaults := by
  unfold runSource
  split
  · trivial
  · trivial
  · exact clean

theorem runRelay_onlyFaults (clean : r.OnlyFaults) (id : String) (params : Params) :
    (runRelay network w r step id params).2.OnlyFaults := by
  unfold runRelay
  split
  · trivial
  · dsimp only
    split
    · trivial
    · split
      · trivial
      · trivial
      · exact clean

theorem runStore_onlyFaults (clean : r.OnlyFaults) {target : StoreRef}
    (places : HasPlaces r.scopes [target]) : (runStore w r step target).2.OnlyFaults := by
  unfold runStore
  split
  · trivial
  · dsimp only
    split
    · rename_i none
      obtain ⟨p, place⟩ := places target List.mem_cons_self
      cases none.symm.trans place
    · exact clean

theorem runLoad_onlyFaults (clean : r.OnlyFaults) {origin : StoreRef}
    (places : HasPlaces r.scopes [origin]) :
    (runLoad network w r step origin).2.OnlyFaults := by
  unfold runLoad
  split
  · rename_i read
    exact Turn.onlyFaults_stopped (load_eq_fault (places origin List.mem_cons_self) read)
  · rename_i read
    obtain ⟨rfl, _⟩ := load_eq_ok read
    exact clean

theorem runMergeEnd_onlyFaults (clean : r.OnlyFaults) {loads : List StoreRef}
    (places : HasPlaces r.scopes loads) (id : String) (params : Params) :
    (runMergeEnd network w r step loads id params).2.OnlyFaults := by
  unfold runMergeEnd
  split
  · rename_i read
    exact Turn.onlyFaults_stopped (mergeInputs_eq_fault places read)
  · rename_i read
    obtain rfl := mergeInputs_run read
    split
    · trivial
    · trivial
    · exact clean

theorem runMerge_onlyFaults (clean : r.OnlyFaults) (sources : List String) {loads : List StoreRef}
    (places : HasPlaces r.scopes loads) (id : String) (params : Params) :
    (runMerge network w r step sources loads id params).2.OnlyFaults := by
  unfold runMerge
  split
  · exact runMergeEnd_onlyFaults clean places id params
  · split
    · trivial
    · trivial
    · exact clean

theorem conclude_onlyFaults (w : World) (r : Run) (shown : StepTrace) (delivered : Value) :
    (conclude w r shown delivered).2.OnlyFaults := by
  unfold conclude
  dsimp only
  split
  · exact fun _ same => nomatch same
  · intro error same
    obtain rfl := Option.some.inj same
    exact ⟨_, rfl⟩

theorem runSink_onlyFaults (id : String) : (runSink network w r step id).2.OnlyFaults := by
  unfold runSink
  split
  · trivial
  · dsimp only
    split
    · trivial
    · trivial
    · exact conclude_onlyFaults _ _ _ _

theorem runFanout_onlyFaults (clean : r.OnlyFaults) (sinks : List String) :
    (runFanout network w r step sinks).2.OnlyFaults := by
  have comes := fanoutTurn network w r step sinks
  generalize runFanout network w r step sinks = result at comes ⊢
  cases comes with
  | empty => trivial
  | stalled => trivial
  | failed => trivial
  | rejected =>
      intro error same
      obtain rfl := Option.some.inj same
      exact ⟨_, rfl⟩
  | concluded => exact conclude_onlyFaults _ _ _ _
  | passed => exact clean

/-- A step whose keys have partitions does not crash. -/
theorem runStep_onlyFaults (clean : r.OnlyFaults) (places : HasPlaces r.scopes step.storeRefs) :
    (runStep network w r step).2.OnlyFaults := by
  cases step with
  | source id => exact runSource_onlyFaults clean id
  | relay id params => exact runRelay_onlyFaults clean id params
  | store target => exact runStore_onlyFaults clean places
  | load origin => exact runLoad_onlyFaults clean places
  | fanout sinks => exact runFanout_onlyFaults clean sinks
  | merge sources loads id params => exact runMerge_onlyFaults clean sources places id params
  | sink id => exact runSink_onlyFaults id

theorem exhaust_onlyFaults (clean : r.OnlyFaults) : (exhaust r).OnlyFaults := by
  unfold exhaust
  split
  · intro error same
    obtain rfl := Option.some.inj same
    exact ⟨_, rfl⟩
  · exact clean

theorem afterTurn_onlyFaults {turn : Turn} (fine : turn.OnlyFaults)
    (turned : afterTurn step r w turn = some (w', r')) : r'.OnlyFaults := by
  cases turn with
  | stalled => cases turned
  | partly after =>
      obtain ⟨-, rfl⟩ := Prod.mk.inj (Option.some.inj turned)
      exact fine
  | failed after fault =>
      obtain ⟨-, rfl⟩ := Prod.mk.inj (Option.some.inj turned)
      intro error same
      obtain rfl := Option.some.inj same
      exact ⟨_, rfl⟩
  | crashed after mishap => exact fine.elim
  | passed after shown =>
      obtain ⟨-, rfl⟩ := Prod.mk.inj (Option.some.inj turned)
      exact exhaust_onlyFaults fine

/-- A move of a run that has its partitions leaves no error but a fault of the library. -/
theorem Move.onlyFaults (provided : Provided r.chain r.scopes) (clean : r.OnlyFaults)
    (move : Move network w r w' r') : r'.OnlyFaults := by
  rcases move.turns_or_quiet with turned | quiet
  · obtain ⟨running, step, here⟩ := running_of_advance turned
    rw [advance_eq running here] at turned
    have places : HasPlaces r.scopes step.storeRefs := fun _ named =>
      provided.partition (List.mem_of_getElem? here) named
    exact afterTurn_onlyFaults (runStep_onlyFaults clean places) turned
  · intro error same
    exact clean error (quiet.error.symm.trans same)

/-- A run that has its partitions, in whatever company, ends with no error but a fault of the
library. -/
theorem Path.onlyFaults {origin : Run} (provided : Provided origin.chain origin.scopes)
    (clean : origin.OnlyFaults) (path : Path network rely w₀ origin w r) : r.OnlyFaults := by
  induction path with
  | here => exact clean
  | waited before others ih => exact ih
  | moved before move ih =>
      rw [← before.chain_eq, ← before.scopes_eq] at provided
      exact move.onlyFaults provided ih

end TaintFlow.Run
