import TaintFlow.Proofs.Run.Delivery
import TaintFlow.Proofs.Run.Move

/-!
# The trace of a run

Every step leaves one entry in the trace of its run.  The error of a run, what
its sinks said and the state that it ends in are kept beside the trace; `Told`
says that a result that has come back shows the same in all of them.
-/

namespace TaintFlow

/-- What a result says of its run from the start on: its id, its chain and what is expected of that,
and its partitions. -/
def RunResult.identity (result : RunResult) : String × String × SinkCategory × RunScopes :=
  (result.runId, result.chain, result.expected, result.scopes)

namespace Run

/-! ## What a turn writes down -/

/-- A run of which nothing has been written down meanwhile. -/
structure Unwritten (r after : Run) : Prop where
  result : after.result = r.result
  stack : after.stack = r.stack
  next : after.next = r.next

/-- A step that has come to its end and what is written down of it, which settles how its run ends
or leaves it running. -/
structure Written (r : Run) (step : Step) (after : Run) (shown : StepTrace) : Prop where
  next : after.next = r.next
  index : shown.index = r.next
  step : shown.step = step
  trace : after.result.trace = r.result.trace
  finished : after.result.finished = r.result.finished
  identity : after.result.identity = r.result.identity
  heard : after.result.sinkResults = r.result.sinkResults ++ shown.sinkResults
  verdict :
    (after.state = r.state ∧ after.result.error = r.result.error ∧ shown.error = none) ∨
      (after.state.isTerminal = true ∧ after.stack = r.stack ∧
        after.result.error = shown.error ∧ (shown.error = none ↔ after.state = .completed))

/-- What a turn is about to write down. -/
def Turn.Writes (r : Run) (step : Step) : Turn → Prop
  | .stalled => True
  | .partly after => Unwritten r after
  | .failed after _ => Unwritten r after
  | .crashed after _ => Unwritten r after
  | .passed after shown => Written r step after shown

/-- Does a turn give up its step for anything but a rejection? -/
def Turn.GivesUp : Turn → Prop
  | .failed _ fault => fault.kind ≠ .sinkRejected
  | .crashed .. => True
  | .stalled | .partly _ | .passed .. => False

/-- An entry shows the labels and the hops of a value, if there is one. -/
def Shows (shown : StepTrace) (value? : Option Value) : Prop :=
  shown.labels = (value?.map Value.labels).getD ∅ ∧
    shown.hops = (value?.map Value.hops).getD 0

variable {network : Network} {rely : World → World → Prop} {w w' : World} {r r' : Run}
  {step : Step}

theorem Unwritten.refl (r : Run) : Unwritten r r := ⟨rfl, rfl, rfl⟩

theorem Unwritten.finished {after : Run} (unwritten : Unwritten r after) :
    after.result.finished = r.result.finished := by
  rw [unwritten.result]

theorem Turn.writes_stopped {r₁ : Run} (unwritten : Unwritten r r₁) (failure : Failure) :
    (r₁.stopped failure).Writes r step := by
  cases failure with
  | fault fault => exact unwritten
  | mishap mishap => exact unwritten
  | invalid what => exact unwritten

/-- A step that shows the active value is written down as such. -/
theorem Written.of_entry {after : Run} (outcome : HopOutcome) (result : after.result = r.result)
    (next : after.next = r.next) : Written r step after (after.entry step outcome) where
  next := next
  index := next
  step := rfl
  trace := congrArg RunResult.trace result
  finished := congrArg RunResult.finished result
  identity := congrArg RunResult.identity result
  heard := (congrArg RunResult.sinkResults result).trans (List.append_nil _).symm
  verdict := .inl ⟨congrArg RunResult.state result, congrArg RunResult.error result, rfl⟩

theorem runSource_writes (id : String) : (runSource network w r step id).2.Writes r step := by
  unfold runSource
  split
  · trivial
  · exact Unwritten.refl r
  · exact Written.of_entry _ rfl rfl

theorem runRelay_writes (id : String) (params : Params) :
    (runRelay network w r step id params).2.Writes r step := by
  unfold runRelay
  split
  · exact Unwritten.refl r
  · dsimp only
    split
    · exact Unwritten.refl r
    · split
      · trivial
      · exact Unwritten.refl r
      · exact Written.of_entry _ rfl rfl

theorem runStore_writes (target : StoreRef) : (runStore w r step target).2.Writes r step := by
  unfold runStore
  split
  · exact Unwritten.refl r
  · dsimp only
    split
    · exact Unwritten.refl r
    · exact ⟨rfl, rfl, rfl, rfl, rfl, rfl, (List.append_nil _).symm, .inl ⟨rfl, rfl, rfl⟩⟩

theorem runLoad_writes (origin : StoreRef) :
    (runLoad network w r step origin).2.Writes r step := by
  unfold runLoad
  split
  · exact Turn.writes_stopped (.refl r) _
  · rename_i read
    obtain ⟨rfl, _⟩ := load_eq_ok read
    exact Written.of_entry _ rfl rfl

theorem runMergeEnd_writes (loads : List StoreRef) (id : String) (params : Params) :
    (runMergeEnd network w r step loads id params).2.Writes r step := by
  unfold runMergeEnd
  split
  · rename_i read
    obtain rfl := mergeInputs_eq_error read
    have unwritten : Unwritten r
        (r.entered (entrants (pendingReadings network w.store r loads))) := ⟨rfl, rfl, rfl⟩
    exact Turn.writes_stopped unwritten _
  · rename_i read
    obtain rfl := mergeInputs_run read
    split
    · trivial
    · exact ⟨rfl, rfl, rfl⟩
    · exact Written.of_entry _ rfl rfl

theorem runMerge_writes (sources : List String) (loads : List StoreRef) (id : String)
    (params : Params) : (runMerge network w r step sources loads id params).2.Writes r step := by
  unfold runMerge
  split
  · exact runMergeEnd_writes loads id params
  · split
    · trivial
    · exact Unwritten.refl r
    · exact ⟨rfl, rfl, rfl⟩

/-- The verdict of the last sinks is written down with them. -/
theorem conclude_writes {r₁ : Run} {shown : StepTrace} (delivered : Value)
    (next : r₁.next = r.next) (stack : r₁.stack = r.stack) (index : shown.index = r.next)
    (same : shown.step = step) (trace : r₁.result.trace = r.result.trace)
    (finished : r₁.result.finished = r.result.finished)
    (identity : r₁.result.identity = r.result.identity)
    (heard : r₁.result.sinkResults = r.result.sinkResults ++ shown.sinkResults)
    (clean : shown.error = none) : (conclude w r₁ shown delivered).2.Writes r step := by
  unfold conclude
  dsimp only
  split
  · exact ⟨next, index, same, trace, finished, identity, heard,
      .inr ⟨rfl, stack, clean.symm, iff_of_true clean rfl⟩⟩
  · exact ⟨next, index, same, trace, finished, identity, heard,
      .inr ⟨rfl, stack, rfl, iff_of_false nofun nofun⟩⟩

theorem runSink_writes (id : String) : (runSink network w r step id).2.Writes r step := by
  unfold runSink
  split
  · exact Unwritten.refl r
  · dsimp only
    split
    · trivial
    · exact Unwritten.refl r
    · exact conclude_writes _ rfl rfl rfl rfl rfl rfl rfl rfl rfl

theorem runFanout_writes (sinks : List String) :
    (runFanout network w r step sinks).2.Writes r step := by
  have comes := fanoutTurn network w r step sinks
  generalize runFanout network w r step sinks = result at comes ⊢
  cases comes with
  | empty => exact Unwritten.refl r
  | stalled => trivial
  | failed => exact ⟨rfl, rfl, rfl⟩
  | @rejected _ _ _ _ results =>
      obtain ⟨_, _, same⟩ := exists_heardAll network r sinks results
      rw [same]
      exact ⟨rfl, rfl, rfl, rfl, rfl, rfl, rfl, .inr ⟨rfl, rfl, rfl, iff_of_false nofun nofun⟩⟩
  | @concluded _ _ _ results =>
      obtain ⟨_, _, same⟩ := exists_heardAll network r sinks results
      rw [same]
      exact conclude_writes _ rfl rfl rfl rfl rfl rfl rfl rfl rfl
  | passed => exact ⟨rfl, rfl, rfl, rfl, rfl, rfl, rfl, .inl ⟨rfl, rfl, rfl⟩⟩

theorem runStep_writes (network : Network) (w : World) (r : Run) (step : Step) :
    (runStep network w r step).2.Writes r step := by
  cases step with
  | source id => exact runSource_writes id
  | relay id params => exact runRelay_writes id params
  | store target => exact runStore_writes target
  | load origin => exact runLoad_writes origin
  | fanout sinks => exact runFanout_writes sinks
  | merge sources loads id params => exact runMerge_writes sources loads id params
  | sink id => exact runSink_writes id

/-! ## What is in the trace after a turn -/

/-- A turn has added an entry to the trace. -/
structure Records (r : Run) (step : Step) (r' : Run) (shown : StepTrace) : Prop where
  index : shown.index = r.next
  step : shown.step = step
  trace : r'.result.trace = r.result.trace ++ [shown]
  finished : r'.result.finished = r.result.finished
  identity : r'.result.identity = r.result.identity
  heard : r'.result.sinkResults = r.result.sinkResults ++ shown.sinkResults
  verdict :
    (r'.next = r.next + 1 ∧ shown.error = none ∧
        (r'.state = .running → r'.result.error = r.result.error)) ∨
      (r'.next = r.next ∧ r'.stack = r.stack ∧ r'.state.isTerminal = true ∧
        r'.result.error = shown.error ∧ (shown.error = none ↔ r'.state = .completed))

/-- The entry of a step that failed. -/
def failureEntry (r : Run) (step : Step) (fault : Fault) : StepTrace :=
  let error := (fault.atStep (some r.next)).record (some r.next)
  if fault.kind = .sinkRejected then
    let result := rejection (fault.atStep (some r.next))
    { index := r.next, step, labels := result.labels, hops := result.hops,
      sinkResults := [result], error := some error }
  else
    r.entry step (if fault.kind = .taintLoss then .lost else .notApplicable) (some error)

/-- The state of a run that a fault has ended. -/
def stateAfter (fault : Fault) : RunState := if fault.kind.breaks then .broken else .failed

theorem fail_run (w : World) (r : Run) (step : Step) (fault : Fault) :
    (fail w r step fault).2 =
      ((r.heard (r.failureEntry step fault).sinkResults).record (r.failureEntry step fault)).finish
        (stateAfter fault) (some ((fault.atStep (some r.next)).record (some r.next))) := rfl

theorem failureEntry_eq (r : Run) (step : Step) (fault : Fault) :
    (r.failureEntry step fault).index = r.next ∧ (r.failureEntry step fault).step = step ∧
      (r.failureEntry step fault).error =
        some ((fault.atStep (some r.next)).record (some r.next)) := by
  unfold failureEntry
  dsimp only
  split
  · exact ⟨rfl, rfl, rfl⟩
  · exact ⟨rfl, rfl, rfl⟩

theorem stateAfter_eq (fault : Fault) :
    (stateAfter fault).isTerminal = true ∧ stateAfter fault ≠ .completed := by
  unfold stateAfter
  split
  · exact ⟨rfl, nofun⟩
  · exact ⟨rfl, nofun⟩

theorem fail_records {r₁ : Run} (unwritten : Unwritten r r₁) (w : World) (step : Step)
    (fault : Fault) : Records r step (fail w r₁ step fault).2 (r₁.failureEntry step fault) := by
  obtain ⟨index, same, error⟩ := failureEntry_eq r₁ step fault
  obtain ⟨terminal, notCompleted⟩ := stateAfter_eq fault
  have identity := congrArg RunResult.identity unwritten.result
  rw [fail_run]
  refine ⟨index.trans unwritten.next, same, ?_, unwritten.finished, identity, ?_,
    .inr ⟨unwritten.next, unwritten.stack, terminal, error.symm, ?_⟩⟩
  · exact congrArg (fun result => result.trace ++ [_]) unwritten.result
  · exact congrArg (fun result => result.sinkResults ++ _) unwritten.result
  · rw [error]
    exact iff_of_false nofun notCompleted

theorem shows_failureEntry {r₁ : Run} (stack : r₁.stack = r.stack) (step : Step) {fault : Fault}
    (other : fault.kind ≠ .sinkRejected) : Shows (r₁.failureEntry step fault) r.top? := by
  have top : r₁.top? = r.top? := congrArg List.getLast? stack
  unfold failureEntry
  rw [if_neg other, ← top]
  exact ⟨rfl, rfl⟩

theorem crash_records {r₁ : Run} (unwritten : Unwritten r r₁) (w : World) (step : Step)
    (mishap : Mishap) : ∃ shown, Records r step (crash w r₁ step mishap).2 shown ∧
      Shows shown r.top? := by
  have top : r₁.top? = r.top? := congrArg List.getLast? unwritten.stack
  have identity := congrArg RunResult.identity unwritten.result
  refine ⟨_, ⟨unwritten.next, rfl, congrArg (· ++ _) (congrArg RunResult.trace unwritten.result),
    unwritten.finished, identity, ?_,
    .inr ⟨unwritten.next, unwritten.stack, rfl, rfl, iff_of_false nofun nofun⟩⟩, ?_⟩
  · exact (congrArg RunResult.sinkResults unwritten.result).trans (List.append_nil _).symm
  · rw [← top]
    exact ⟨rfl, rfl⟩

theorem Written.records {after : Run} {shown : StepTrace} (written : Written r step after shown)
    (running : r.state = .running) (turned : afterTurn step r w (.passed after shown) =
      some (w', r')) : Records r step r' shown := by
  rcases written.verdict with ⟨state, error, clean⟩ | ⟨terminal, stack, error, verdict⟩
  · rw [afterTurn_passed (state.trans running) written.next] at turned
    obtain ⟨-, rfl⟩ := Prod.mk.inj (Option.some.inj turned)
    have result : (after.passOn shown).result = (exhaust
        { after.record shown with next := after.next + 1 }).result := by
      rw [passOn_eq_exhaust]
    refine ⟨written.index, written.step, ?_, ?_, ?_, ?_,
      .inl ⟨congrArg (· + 1) written.next, clean, ?_⟩⟩
    · rw [result]
      unfold exhaust
      split
      · exact congrArg (· ++ [shown]) written.trace
      · exact congrArg (· ++ [shown]) written.trace
    · rw [result]
      unfold exhaust
      split
      · exact written.finished
      · exact written.finished
    · rw [result]
      unfold exhaust
      split
      · exact written.identity
      · exact written.identity
    · rw [result]
      unfold exhaust
      split
      · exact written.heard
      · exact written.heard
    · intro still
      have goesOn : (exhaust { after.record shown with next := after.next + 1 }).state =
          .running := by
        rw [← passOn_eq_exhaust]
        exact still
      rw [result]
      unfold exhaust at goesOn ⊢
      split
      · rename_i end_
        rw [if_pos end_] at goesOn
        exact nomatch goesOn
      · exact error
  · rw [afterTurn_ended terminal written.next] at turned
    obtain ⟨-, rfl⟩ := Prod.mk.inj (Option.some.inj turned)
    exact ⟨written.index, written.step, congrArg (· ++ [shown]) written.trace,
      written.finished, written.identity, written.heard, .inr ⟨written.next, stack, terminal, error, verdict⟩⟩

/-- A turn adds nothing to the trace while its step goes on, and one entry when it has ended. -/
theorem advance_records (here : r.chain.steps[r.next]? = some step)
    (turned : advance network w r = some (w', r')) :
    Unwritten r r' ∧ ¬ (runStep network w r step).2.GivesUp ∨
      ∃ shown, Records r step r' shown ∧
        ((runStep network w r step).2.GivesUp → Shows shown r.top?) := by
  obtain ⟨running, _⟩ := running_of_advance turned
  rw [advance_eq running here] at turned
  have writes := runStep_writes network w r step
  generalize runStep network w r step = both at turned writes ⊢
  obtain ⟨w₁, turn⟩ := both
  cases turn with
  | stalled => exact nomatch turned
  | partly after =>
      obtain ⟨-, rfl⟩ := Prod.mk.inj (Option.some.inj turned)
      exact .inl ⟨writes, id⟩
  | failed after fault =>
      obtain ⟨-, rfl⟩ := Prod.mk.inj (Option.some.inj turned)
      exact .inr ⟨_, fail_records writes (w₁.count (.steps step.kind)) step fault,
        shows_failureEntry writes.stack step⟩
  | crashed after mishap =>
      obtain ⟨-, rfl⟩ := Prod.mk.inj (Option.some.inj turned)
      obtain ⟨shown, records, shows⟩ :=
        crash_records writes (w₁.count (.steps step.kind)) step mishap
      exact .inr ⟨shown, records, fun _ => shows⟩
  | passed after shown => exact .inr ⟨shown, Written.records writes running turned, False.elim⟩

/-! ## What a trace tells -/

/-- The entries of a trace are those of the steps of a chain from the first on, in order. -/
def Ordered (chain : Chain) (entries : List StepTrace) : Prop :=
  ∀ (i : Nat) (shown : StepTrace), entries[i]? = some shown → shown.index = i ∧ chain.steps[i]? = some shown.step

/-- The trace of a run on its way: one entry for each step that was done, none with an error. -/
structure Tidy (r : Run) : Prop where
  length : r.result.trace.length = r.next
  ordered : Ordered r.chain r.result.trace
  clean : ∀ shown ∈ r.result.trace, shown.error = none
  error : r.result.error = none
  heard : r.result.sinkResults = r.result.trace.flatMap StepTrace.sinkResults

/-- The trace of a run that has ended, and what its result shows of it: only the last entry may
have an error, which is the error of the run. -/
structure Told (chain : Chain) (result : RunResult) : Prop where
  terminal : result.state.isTerminal = true
  ordered : Ordered chain result.trace
  last : ∃ earlier shown, result.trace = earlier ++ [shown] ∧
    (∀ before ∈ earlier, before.error = none) ∧ result.error = shown.error
  whole : result.state = .completed → result.trace.length = chain.steps.length
  error : result.error = none ↔ result.state = .completed
  heard : result.sinkResults = result.trace.flatMap StepTrace.sinkResults

theorem Ordered.concat {chain : Chain} {entries : List StepTrace} {shown : StepTrace}
    (ordered : Ordered chain entries) (index : shown.index = entries.length)
    (here : chain.steps[entries.length]? = some shown.step) : Ordered chain (entries ++ [shown]) := by
  intro i other at_
  rcases Nat.lt_trichotomy i entries.length with less | same | more
  · rw [List.getElem?_append_left less] at at_
    exact ordered i other at_
  · subst same
    rw [List.getElem?_concat_length] at at_
    obtain rfl := Option.some.inj at_
    exact ⟨index, here⟩
  · have beyond : (entries ++ [shown]).length ≤ i := by
      rw [List.length_append]
      exact more
    rw [List.getElem?_eq_none beyond] at at_
    exact nomatch at_

/-- Entries in order are those of the first steps. -/
theorem Ordered.map_step {chain : Chain} {entries : List StepTrace}
    (ordered : Ordered chain entries) :
    entries.map StepTrace.step = chain.steps.take entries.length := by
  refine List.ext_getElem? fun i => ?_
  rw [List.getElem?_map, List.getElem?_take]
  split
  · rename_i before
    have at_ : entries[i]? = some entries[i] := List.getElem?_eq_getElem before
    rw [at_, (ordered i _ at_).2]
    rfl
  · rename_i beyond
    rw [List.getElem?_eq_none (Nat.le_of_not_lt beyond)]
    rfl

theorem Records.ordered {shown : StepTrace} (records : Records r step r' shown)
    (here : r.chain.steps[r.next]? = some step) (tidy : Tidy r) :
    Ordered r.chain r'.result.trace := by
  rw [records.trace]
  refine tidy.ordered.concat (records.index.trans tidy.length.symm) ?_
  rw [tidy.length, records.step]
  exact here

theorem Records.heard_eq {shown : StepTrace} (records : Records r step r' shown) (tidy : Tidy r) :
    r'.result.sinkResults = r'.result.trace.flatMap StepTrace.sinkResults := by
  rw [records.heard, records.trace, tidy.heard, List.flatMap_append]
  simp only [List.flatMap_cons, List.flatMap_nil, List.append_nil]

/-- A turn of a run of an accepted chain leaves a tidy trace, or one that tells how it ended. -/
theorem Tidy.turn {defining : Network} (valid : r.chain.validate defining = .ok ())
    (tidy : Tidy r) (turned : advance network w r = some (w', r')) :
    (r'.state = .running ∧ Tidy r') ∨ Told r.chain r'.result := by
  obtain ⟨running, deed⟩ := deed_of_advance turned
  have chain : r'.chain = r.chain := (deed.frame running).1
  obtain ⟨_, step, here⟩ := running_of_advance turned
  rcases advance_records here turned with ⟨unwritten, _⟩ | ⟨shown, records, _⟩
  · have state : r'.state = .running := (congrArg RunResult.state unwritten.result).trans running
    refine .inl ⟨state, ?_, ?_, ?_, ?_, ?_⟩
    · rw [unwritten.result, unwritten.next, tidy.length]
    · rw [unwritten.result, chain]
      exact tidy.ordered
    · rw [unwritten.result]
      exact tidy.clean
    · rw [unwritten.result, tidy.error]
    · rw [unwritten.result, tidy.heard]
  · have ordered := records.ordered here tidy
    have heard := records.heard_eq tidy
    rcases records.verdict with ⟨next, clean, error⟩ | ⟨next, _, terminal, error, verdict⟩
    · have state : r'.state = .running := by
        rcases deed.cases_of_running running with passes | ⟨_, _, collects⟩ | ⟨_, _, _, judges⟩ | ends
        · exact passes.state_of_valid valid
        · exact absurd (next.symm.trans collects.next) (Nat.succ_ne_self _)
        · exact absurd (next.symm.trans judges.next) (Nat.succ_ne_self _)
        · exact absurd (next.symm.trans ends.next) (Nat.succ_ne_self _)
      refine .inl ⟨state, ?_, chain ▸ ordered, ?_, (error state).trans tidy.error, heard⟩
      · rw [records.trace, List.length_append, tidy.length, next]
        rfl
      · intro one inside
        rw [records.trace] at inside
        rcases List.mem_append.mp inside with before | last
        · exact tidy.clean one before
        · rw [List.mem_singleton.mp last]
          exact clean
    · refine .inr ⟨terminal, ordered, ⟨_, shown, records.trace, tidy.clean, error⟩, ?_, ?_, heard⟩
      · intro completed
        rcases deed.cases_of_running running with passes | ⟨_, _, collects⟩ | ⟨_, _, _, judges⟩ | ends
        · exact absurd next passes.next_ne
        · rw [collects.same] at completed
          exact nomatch running.symm.trans completed
        · have last := (judges.atLast valid).1
          have length := r.chain.length_eq
          rw [records.trace, List.length_append, tidy.length, last, length]
          rfl
        · rcases ends.state with state | state
          · exact nomatch state.symm.trans completed
          · exact nomatch state.symm.trans completed
      · rw [error]
        exact verdict

/-! ## Whole runs -/

variable {origin : Run} {w₀ : World}

/-- A move stays at its step, with the active values as they were, or goes on to the next. -/
theorem Move.stack_eq_or_next_lt (move : Move network w r w' r') :
    r'.next = r.next ∧ r'.stack = r.stack ∨ r.next < r'.next := by
  rcases move.turns_or_quiet with turned | quiet
  · obtain ⟨_, step, here⟩ := running_of_advance turned
    rcases advance_records here turned with ⟨unwritten, _⟩ | ⟨_, records, _⟩
    · exact .inl ⟨unwritten.next, unwritten.stack⟩
    · rcases records.verdict with ⟨next, _⟩ | ⟨next, stack, _⟩
      · exact .inr (next ▸ Nat.lt_succ_self r.next)
      · exact .inl ⟨next, stack⟩
  · exact .inl ⟨quiet.next, quiet.stack⟩

/-- What is in a trace stays there. -/
theorem Move.trace_prefix (move : Move network w r w' r') :
    r.result.trace <+: r'.result.trace := by
  rcases move.turns_or_quiet with turned | quiet
  · obtain ⟨_, step, here⟩ := running_of_advance turned
    rcases advance_records here turned with ⟨unwritten, _⟩ | ⟨shown, records, _⟩
    · exact unwritten.result ▸ List.prefix_refl _
    · exact ⟨[shown], records.trace.symm⟩
  · exact quiet.entries ▸ List.prefix_refl _

theorem Path.trace_prefix (path : Path network rely w₀ origin w r) :
    origin.result.trace <+: r.result.trace :=
  path.keeps (fun r => origin.result.trace <+: r.result.trace)
    (fun before move => before.trans move.trace_prefix) (List.prefix_refl _)

/-- A step has the active values before it all along, however it is interleaved with others. -/
theorem Path.stack_eq (path : Path network rely w₀ origin w r) :
    r.next = origin.next ∧ r.stack = origin.stack ∨ origin.next < r.next := by
  refine path.keeps (fun r => r.next = origin.next ∧ r.stack = origin.stack ∨
    origin.next < r.next) ?_ (.inl ⟨rfl, rfl⟩)
  intro w r w' r' before move
  rcases move.stack_eq_or_next_lt with ⟨next, stack⟩ | later
  · rw [next, stack]
    exact before
  · rcases before with ⟨next, _⟩ | earlier
    · exact .inr (next ▸ later)
    · exact .inr (Nat.lt_trans earlier later)

theorem Quiet.tidy (quiet : Quiet r r') (tidy : Tidy r) : Tidy r' where
  length := by rw [quiet.entries, quiet.next, tidy.length]
  ordered := by
    rw [quiet.entries, quiet.chain]
    exact tidy.ordered
  clean := by
    rw [quiet.entries]
    exact tidy.clean
  error := quiet.error.trans tidy.error
  heard := by rw [quiet.heard, quiet.entries, tidy.heard]

theorem Quiet.told {chain : Chain} (quiet : Quiet r r') (state : r'.state = r.state)
    (told : Told chain r.result) : Told chain r'.result where
  terminal := (congrArg RunState.isTerminal state).trans told.terminal
  ordered := by
    rw [quiet.entries]
    exact told.ordered
  last := by
    rw [quiet.entries, quiet.error]
    exact told.last
  whole := by
    rw [show r'.result.state = r.result.state from state, quiet.entries]
    exact told.whole
  error := by
    rw [show r'.result.state = r.result.state from state, quiet.error]
    exact told.error
  heard := by rw [quiet.heard, quiet.entries, told.heard]

/-- A run of which nothing is known yet. -/
structure Untold (r : Run) : Prop where
  state : r.state = .pending
  next : r.next = 0
  entries : r.result.trace = []
  heard : r.result.sinkResults = []
  error : r.result.error = none

theorem Untold.tidy (untold : Untold r) : Tidy r where
  length := by
    rw [untold.entries, untold.next]
    rfl
  ordered := by
    intro i shown at_
    rw [untold.entries] at at_
    exact nomatch at_
  clean := by
    rw [untold.entries]
    exact fun _ inside => absurd inside List.not_mem_nil
  error := untold.error
  heard := by
    rw [untold.heard, untold.entries]
    rfl

/-- A run of an accepted chain has a tidy trace, or one that tells how it ended. -/
theorem Path.tidy_or_told {defining : Network} (valid : origin.chain.validate defining = .ok ())
    (untold : Untold origin) (path : Path network rely w₀ origin w r) :
    (r.state.isTerminal = false ∧ Tidy r) ∨ Told origin.chain r.result := by
  induction path with
  | here => exact .inl ⟨by rw [untold.state]; rfl, untold.tidy⟩
  | waited before others ih => exact ih
  | @moved w w' r r' before move ih =>
      have chain : r.chain = origin.chain := before.chain_eq
      rcases move.turns_or_quiet with turned | quiet
      · have running := (running_of_advance turned).1
        rcases ih with ⟨_, tidy⟩ | told
        · rcases tidy.turn (chain ▸ valid) turned with ⟨running', tidy'⟩ | told
          · exact .inl ⟨by rw [running']; rfl, tidy'⟩
          · exact .inr (chain ▸ told)
        · exact absurd running (not_running_of_isTerminal told.terminal)
      · rcases ih with ⟨open_, tidy⟩ | told
        · refine .inl ⟨?_, quiet.tidy tidy⟩
          rcases quiet.state with same | ⟨_, running⟩
          · rw [same]
            exact open_
          · rw [running]
            rfl
        · rcases quiet.state with same | ⟨pending, _⟩
          · exact .inr (quiet.told same told)
          · have terminal := told.terminal
            rw [show r.result.state = .pending from pending] at terminal
            exact nomatch terminal

/-- A turn does not close its run. -/
theorem finished_of_advance (turned : advance network w r = some (w', r')) :
    r'.result.finished = r.result.finished := by
  obtain ⟨_, step, here⟩ := running_of_advance turned
  rcases advance_records here turned with ⟨unwritten, _⟩ | ⟨_, records, _⟩
  · exact unwritten.finished
  · exact records.finished

/-- A run is not closed as long as it is on its course. -/
theorem Course.finished_eq {log : List Event} (way : Course network rely origin log w r) :
    r.result.finished = origin.result.finished := by
  induction way with
  | started begun =>
      obtain ⟨_, rfl⟩ := start_eq_ok begun
      rfl
  | turned before turn ih => exact (finished_of_advance turn).trans ih
  | readAhead before running here asked read ih =>
      rw [mergeInputs_run read]
      exact ih
  | summoned before running ih => exact ih
  | called position before running ih => exact ih
  | answered before running named top answer ih => exact ih
  | waited before others ih => exact ih

/-- What a result says of its run from the start on, it goes on to say. -/
theorem Move.identity_eq (move : Move network w r w' r') :
    r'.result.identity = r.result.identity := by
  cases move with
  | begins begun =>
      obtain ⟨_, rfl⟩ := start_eq_ok begun
      rfl
  | turns turned =>
      obtain ⟨_, step, here⟩ := running_of_advance turned
      rcases advance_records here turned with ⟨unwritten, _⟩ | ⟨_, records, _⟩
      · exact congrArg RunResult.identity unwritten.result
      · exact records.identity
  | readsAhead running here asked read =>
      rw [mergeInputs_run read]
      rfl
  | summons running => rfl
  | calls position running => rfl
  | hears running named top answer => rfl
  | misses running named top answer => rfl
  | closes terminal unclosed closed =>
      obtain ⟨_, rfl⟩ := close_eq_ok closed
      rfl

theorem Path.identity_eq (path : Path network rely w₀ origin w r) :
    r.result.identity = origin.result.identity :=
  path.keeps (fun r => r.result.identity = origin.result.identity)
    (fun same move => move.identity_eq.trans same) rfl

/-- A run that returns has a path to its end, where it is closed. -/
theorem Returned.path {log : List Event} {result : RunResult}
    (returned : Returned network rely origin log result) (unclosed : origin.result.finished = false) :
    ∃ w₀ w r, Path network rely w₀ origin w r ∧ r.result.finished = true ∧ r.result = result := by
  obtain ⟨w, r, w', r', way, terminal, closed, rfl⟩ := returned
  obtain ⟨w₀, path⟩ := way.path
  have still : r.result.finished = false := way.finished_eq.trans unclosed
  refine ⟨w₀, w', r', path.moved (.closes terminal still closed), ?_, rfl⟩
  rw [(close_eq_ok closed).2]

/-! ## Runs that are started again -/

/-- What keeps a run from starting that is not pending. -/
def notPending (state : RunState) : Mishap :=
  ⟨"InvalidStateTransition",
    s!"illegal chain state transition: {state.text} -> {RunState.running.text}"⟩

theorem start_of_isTerminal (w : World) (terminal : r.state.isTerminal = true) :
    start w r = .error (notPending r.state) := by
  have refused : ¬ r.state.allows .running = true := by
    rw [RunState.allows_of_isTerminal terminal]
    exact Bool.false_ne_true
  unfold start RunState.moveTo
  rw [if_neg refused]
  rfl

/-- A run that has ended cannot be started again, whether others go on beside it or not. -/
theorem run_of_isTerminal (network : Network) (w : World) (terminal : r.state.isTerminal = true) :
    run network w r = .raised w r (notPending r.state) ∧
      ∀ l : EventLoop, l.own = none →
        l.run network w r = (.raised w r (notPending r.state), l) := by
  have refused := start_of_isTerminal w terminal
  have alone : run network w r = .raised w r (notPending r.state) := by
    unfold run
    rw [refused]
  refine ⟨alone, fun l nobody => ?_⟩
  have set : r.setOut network w = .ended (.raised w r (notPending r.state)) := by
    unfold setOut
    rw [refused]
  unfold EventLoop.run
  split
  · rw [alone]
  · rw [set, EventLoop.finish, ← nobody]

/-! ## The integrity of traces -/

theorem Path.trans {w₁ : World} {r₁ : Run} (first : Path network rely w₀ origin w₁ r₁)
    (second : Path network rely w₁ r₁ w r) : Path network rely w₀ origin w r := by
  induction second with
  | here => exact first
  | moved before move ih => exact ih.moved move
  | waited before others ih => exact ih.waited others

/-- Between two points of its path a run has given up the step that it was at. -/
def GivenUp (network : Network) (rely : World → World → Prop) (w₁ : World) (r₁ : Run) (w : World)
    (r : Run) : Prop :=
  ∃ w₂ r₂ w₃ r₃ step, Path network rely w₁ r₁ w₂ r₂ ∧ r₂.next = r₁.next ∧
    r₂.chain.steps[r₂.next]? = some step ∧ (runStep network w₂ r₂ step).2.GivesUp ∧
      advance network w₂ r₂ = some (w₃, r₃) ∧ Path network rely w₃ r₃ w r

/-- The entry of a step that was given up shows the value that was active before it. -/
theorem GivenUp.shows {defining : Network} {w₁ : World} {r₁ : Run}
    (valid : origin.chain.validate defining = .ok ()) (untold : Untold origin)
    (path : Path network rely w₀ origin w₁ r₁) (givenUp : GivenUp network rely w₁ r₁ w r) :
    ∃ shown, r.result.trace[r₁.next]? = some shown ∧ Shows shown r₁.top? := by
  obtain ⟨w₂, r₂, w₃, r₃, step, between, still, here, givesUp, turned, rest⟩ := givenUp
  have running := (running_of_advance turned).1
  have tidy : Tidy r₂ := by
    rcases (path.trans between).tidy_or_told valid untold with ⟨_, tidy⟩ | told
    · exact tidy
    · exact absurd running (not_running_of_isTerminal told.terminal)
  have top : r₂.top? = r₁.top? := by
    rcases between.stack_eq with ⟨_, stack⟩ | later
    · exact congrArg List.getLast? stack
    · omega
  rcases advance_records here turned with ⟨_, goesOn⟩ | ⟨shown, records, shows⟩
  · exact absurd givesUp goesOn
  · refine ⟨shown, ?_, top ▸ shows givesUp⟩
    obtain ⟨more, whole⟩ := rest.trace_prefix
    rw [← whole, records.trace, List.append_assoc, ← still, ← tidy.length]
    rw [List.getElem?_append_right (Nat.le_refl _), Nat.sub_self]
    rfl

/-- Only a run that has ended is closed. -/
theorem Path.isTerminal_of_finished (unclosed : origin.result.finished = false)
    (path : Path network rely w₀ origin w r) (finished : r.result.finished = true) :
    r.state.isTerminal = true := by
  refine path.keeps (fun r => r.result.finished = true → r.state.isTerminal = true) ?_
    (fun finished => nomatch unclosed.symm.trans finished) finished
  intro w r w' r' before move finished
  rcases move.turns_or_quiet with turned | quiet
  · have terminal := before ((finished_of_advance turned).symm.trans finished)
    exact absurd (running_of_advance turned).1 (not_running_of_isTerminal terminal)
  · rcases quiet.finished with same | terminal
    · have terminal := before (same.symm.trans finished)
      rcases quiet.state with still | ⟨pending, _⟩
      · exact (congrArg RunState.isTerminal still).trans terminal
      · rw [pending] at terminal
        exact nomatch terminal
    · exact terminal

theorem Path.told {defining : Network} (valid : origin.chain.validate defining = .ok ())
    (untold : Untold origin) (unclosed : origin.result.finished = false)
    (path : Path network rely w₀ origin w r) (finished : r.result.finished = true) :
    Told origin.chain r.result := by
  rcases path.tidy_or_told valid untold with ⟨open_, _⟩ | told
  · exact nomatch (path.isTerminal_of_finished unclosed finished).symm.trans open_
  · exact told

theorem untold_fresh (chain : Chain) (scopes : RunScopes) (runId : String) (context : Payload)
    (timeout : Option Timeout) : Untold (fresh chain scopes runId context timeout) :=
  ⟨rfl, rfl, rfl, rfl, rfl⟩

/-- What comes back of a run of an accepted chain, in whatever company, tells how it ended. -/
theorem Returned.told {defining : Network} {log : List Event} {result : RunResult}
    (valid : origin.chain.validate defining = .ok ()) (untold : Untold origin)
    (unclosed : origin.result.finished = false)
    (returned : Returned network rely origin log result) : Told origin.chain result := by
  obtain ⟨w₀, w, r, path, finished, rfl⟩ := returned.path unclosed
  exact path.told valid untold unclosed finished

/-- **The trace of a run tells what became of it.**  However a run of an accepted chain is
interleaved with others, once it has come back: its entries are those of the first steps in order,
its error is that of its last entry and is there unless the run was completed, a completed run has
done all steps, and its sinks have said what the entries say; a step that was given up shows the
value that was active before it; a run goes from pending to running and from running to its end, and
cannot be started again. -/
theorem trace_integrity {defining network : Network} {rely : World → World → Prop} {chain : Chain}
    {scopes : RunScopes} {runId : String} {context : Payload} {timeout : Option Timeout}
    {w₀ w : World} {r : Run} (valid : chain.validate defining = .ok ())
    (path : Path network rely w₀ (fresh chain scopes runId context timeout) w r)
    (finished : r.result.finished = true) :
    Told chain r.result ∧
      (∀ w₁ r₁, Path network rely w₀ (fresh chain scopes runId context timeout) w₁ r₁ →
        GivenUp network rely w₁ r₁ w r →
        ∃ shown, r.result.trace[r₁.next]? = some shown ∧ Shows shown r₁.top?) ∧
      (∀ w₁ r₁ w₂ r₂, Path network rely w₀ (fresh chain scopes runId context timeout) w₁ r₁ →
        Move network w₁ r₁ w₂ r₂ → Path network rely w₂ r₂ w r →
        r₂.state = r₁.state ∨ r₁.state.allows r₂.state = true) ∧
      (∀ w', run network w' r = .raised w' r (notPending r.state) ∧
        ∀ l : EventLoop, l.own = none →
          l.run network w' r = (.raised w' r (notPending r.state), l)) := by
  have untold := untold_fresh chain scopes runId context timeout
  have told : Told chain r.result := path.told valid untold rfl finished
  refine ⟨told, fun w₁ r₁ before givenUp => givenUp.shows valid untold before,
    fun _ _ _ _ _ move _ => move.state_eq_or_allows,
    fun w' => run_of_isTerminal network w' told.terminal⟩

/-- A source without the sink that its chain names. -/
def sinkless : Network := { shortcut with sinks := [] }

/-- A run to a sink that is not there gives up its last step, and shows the value that it could not
deliver. -/
theorem trace_integrity_sinkless : ∃ w₁ r₁ w r shown,
    Path sinkless (fun _ _ => False) {} (fresh direct ⟨"1", none⟩ "1") w r ∧
      Told direct r.result ∧ r.state = .failed ∧
      GivenUp sinkless (fun _ _ => False) w₁ r₁ w r ∧
      r.result.trace[r₁.next]? = some shown ∧ Shows shown r₁.top? ∧ shown.labels ≠ ∅ := by
  obtain ⟨w₁, r₁, w₂, r₂, w₃, r₃, w, r, begun, first, here, givesUp, second, closed, terminal,
      unclosed, finished, state, tainted⟩ : ∃ w₁ r₁ w₂ r₂ w₃ r₃ w r,
      start {} (fresh direct ⟨"1", none⟩ "1") = .ok (w₁, r₁) ∧
        advance sinkless w₁ r₁ = some (w₂, r₂) ∧
        r₂.chain.steps[r₂.next]? = some (.sink "shell") ∧
        (runStep sinkless w₂ r₂ (.sink "shell")).2.GivesUp ∧
        advance sinkless w₂ r₂ = some (w₃, r₃) ∧ close w₃ r₃ = .ok (w, r) ∧
        r₃.state.isTerminal = true ∧ r₃.result.finished = false ∧ r.result.finished = true ∧
        r.state = .failed ∧ (r₂.top?.map Value.labels).getD ∅ ≠ ∅ :=
    ⟨_, _, _, _, _, _, _, _, rfl, rfl, rfl, nofun, rfl, rfl, rfl, rfl, rfl, rfl, by decide⟩
  have before : Path sinkless (fun _ _ => False) {} (fresh direct ⟨"1", none⟩ "1") w₂ r₂ :=
    (Path.here.moved (.begins begun)).moved (.turns first)
  have rest : Path sinkless (fun _ _ => False) w₃ r₃ w r :=
    Path.here.moved (.closes terminal unclosed closed)
  have path := (before.moved (.turns second)).trans rest
  have givenUp : GivenUp sinkless (fun _ _ => False) w₂ r₂ w r :=
    ⟨_, _, _, _, _, .here, rfl, here, givesUp, second, rest⟩
  have valid : direct.validate shortcut = .ok () := rfl
  obtain ⟨told, shows, _⟩ := trace_integrity valid path finished
  obtain ⟨shown, at_, shows⟩ := shows w₂ r₂ before givenUp
  exact ⟨w₂, r₂, w, r, shown, path, told, state, givenUp, at_, shows, shows.1 ▸ tainted⟩

end Run

end TaintFlow
