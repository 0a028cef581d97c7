import Mathlib.Data.List.Forall2
import TaintFlow.Proofs.Data.Except
import TaintFlow.Proofs.Run.Turn

/-!
# What a run reads and hears

A value that a run reads is live in its own partition, and its labels enter the
run.  Several sinks give an answer each, in the order in which they are named,
whether they are called at once or one by one.
-/

namespace TaintFlow.Run

variable {network : Network} {w : World} {r : Run}

/-! ## Reading from the store -/

/-- A value is live under a key in the partition of a run. -/
def Lives (scopes : RunScopes) (store : Store) (origin : StoreRef) (value : Value) : Prop :=
  ∃ p writtenAt, origin.scope.partition (scopes.idFor origin.scope) = .ok p ∧
    store.slot? p origin.key = some (.live value writtenAt)

/-- A slot that can be read holds a live value. -/
theorem readSlot_eq_ok {store : Store} {p : Partition} {key : String} {value : Value}
    (read : readSlot store p key = .ok value) :
    ∃ writtenAt, store.slot? p key = some (.live value writtenAt) := by
  unfold readSlot at read
  split at read
  · rename_i found
    exact ⟨_, Except.ok.inj read ▸ found⟩
  · exact nomatch read
  · exact nomatch read

/-- A value that is read is live in the run's own partition, and its labels enter the run. -/
theorem load_eq_ok {store : Store} {r r' : Run} {origin : StoreRef} {value : Value}
    (read : load network store r origin = .ok (value, r')) :
    r' = r.entered value.labels ∧ Lives r.scopes store origin value := by
  unfold load at read
  obtain ⟨p, partition, read⟩ := Except.bind_eq_ok.mp read
  obtain ⟨found, slot, checked⟩ := Except.bind_eq_ok.mp read
  obtain ⟨writtenAt, live⟩ := readSlot_eq_ok (Except.mapError_eq_ok.mp slot)
  have same : (Except.ok (found, r.entered found.labels) : Except Failure (Value × Run)) =
      .ok (value, r') := by
    dsimp only at checked
    split at checked
    · split at checked
      · exact (Except.check_eq_ok.mp checked).2
      · exact checked
    · exact checked
  obtain ⟨rfl, rfl⟩ := Prod.mk.inj (Except.ok.inj same)
  exact ⟨rfl, p, writtenAt, Except.mapError_eq_ok.mp partition, live⟩

/-- What is read under several keys follows what was gathered before, and its labels enter the
run. -/
theorem loadAll_eq_ok {store : Store} {r r' : Run} {loads : List StoreRef}
    {values inputs : List Value}
    (read : loadAll network store r loads values = .ok (inputs, r')) :
    ∃ found, inputs = values ++ found ∧ List.Forall₂ (Lives r.scopes store) loads found ∧
      readings network store r loads = List.zipWith Event.read loads found ∧
      r' = r.entered (entrants (readings network store r loads)) := by
  induction loads generalizing r values with
  | nil =>
      obtain ⟨rfl, rfl⟩ := Prod.mk.inj (Except.ok.inj read)
      refine ⟨[], (List.append_nil values).symm, .nil, rfl, ?_⟩
      simp only [readings, entrants_nil, entered, SortedSet.union_empty]
  | cons origin rest ih =>
      unfold loadAll at read
      unfold readings
      cases first : load network store r origin with
      | error failure => simp [first] at read
      | ok pair =>
          obtain ⟨value, r₁⟩ := pair
          obtain ⟨rfl, lives⟩ := load_eq_ok first
          rw [first] at read
          obtain ⟨found, rfl, all, events, rfl⟩ := ih read
          refine ⟨value :: found, by simp, .cons lives all, ?_, ?_⟩
          · simp only [events, List.zipWith_cons_cons]
          · simp only [entrants_read, entered, SortedSet.union_assoc]

/-- A key that cannot be read leaves the labels of what was read before. -/
theorem loadAll_eq_error {store : Store} {r r' : Run} {loads : List StoreRef}
    {values : List Value} {failure : Failure}
    (read : loadAll network store r loads values = .error (failure, r')) :
    r' = r.entered (entrants (readings network store r loads)) := by
  induction loads generalizing r values with
  | nil => exact nomatch read
  | cons origin rest ih =>
      unfold loadAll at read
      unfold readings
      cases first : load network store r origin with
      | error cause =>
          rw [first] at read
          obtain ⟨_, rfl⟩ := Prod.mk.inj (Except.error.inj read)
          simp only [entrants_nil, entered, SortedSet.union_empty]
      | ok pair =>
          obtain ⟨value, r₁⟩ := pair
          obtain ⟨rfl, _⟩ := load_eq_ok first
          rw [first] at read
          rw [ih read]
          simp only [entrants_read, entered, SortedSet.union_assoc]

/-- The inputs of a merge are what its sources gave and what is read under its keys. -/
theorem mergeInputs_eq_ok {store : Store} {r r' : Run} {loads : List StoreRef}
    {inputs : List Value} (read : mergeInputs network store r loads = .ok (inputs, r')) :
    ∃ found, inputs = r.gathered ++ found ∧
      (r.loaded = false → List.Forall₂ (Lives r.scopes store) loads found) ∧
      pendingReadings network store r loads =
        (if r.loaded then [] else List.zipWith Event.read loads found) ∧
      (r.loaded = true → found = []) ∧
      r' = { r.entered (entrants (pendingReadings network store r loads)) with
        gathered := inputs, loaded := true } := by
  unfold mergeInputs at read
  unfold pendingReadings
  cases loaded : r.loaded with
  | true =>
      simp only [loaded, if_true] at read
      obtain ⟨rfl, rfl⟩ := Prod.mk.inj (Except.ok.inj read)
      refine ⟨[], (List.append_nil _).symm, nofun, rfl, fun _ => rfl, ?_⟩
      simp only [if_true, entrants_nil, entered, SortedSet.union_empty, ← loaded]
  | false =>
      simp only [loaded, Bool.false_eq_true, if_false] at read
      cases all : loadAll network store r loads r.gathered with
      | error failure => simp [all] at read
      | ok pair =>
          obtain ⟨values, r₁⟩ := pair
          obtain ⟨found, rfl, live, events, rfl⟩ := loadAll_eq_ok all
          rw [all] at read
          obtain ⟨rfl, rfl⟩ := Prod.mk.inj (Except.ok.inj read)
          exact ⟨found, rfl, fun _ => live, events, nofun, rfl⟩

/-- A merge whose keys cannot all be read has asked nothing else of the store. -/
theorem mergeInputs_eq_error {store : Store} {r r' : Run} {loads : List StoreRef}
    {failure : Failure}
    (read : mergeInputs network store r loads = .error (failure, r')) :
    r' = r.entered (entrants (pendingReadings network store r loads)) := by
  unfold mergeInputs at read
  unfold pendingReadings
  cases loaded : r.loaded with
  | true => simp [loaded] at read
  | false =>
      simp only [loaded, Bool.false_eq_true, if_false] at read
      cases all : loadAll network store r loads r.gathered with
      | ok pair => simp [all] at read
      | error pair =>
          rw [all] at read
          obtain rfl := Except.error.inj read
          exact loadAll_eq_error all

/-! ## What sinks say -/

theorem mapM_id_eq_some {α : Type} {given : List (Option α)} {found : List α}
    (all : given.mapM id = some found) : given = found.map some := by
  induction given generalizing found with
  | nil =>
      have none : found = [] := by simpa using all.symm
      rw [none]
      rfl
  | cons first rest ih =>
      rw [List.mapM_cons] at all
      cases first with
      | none => exact nomatch all
      | some a =>
          cases others : rest.mapM id with
          | none => simp [others] at all
          | some tail =>
              have same : a :: tail = found := by simpa [others] using all
              rw [← same, ih others]
              rfl

theorem gatherSinks_ok_cons (result : SinkResult) (rest : List (Except Fault SinkResult)) :
    gatherSinks (.ok result :: rest) =
      (gatherSinks rest).map fun heard => (result :: heard.1, heard.2) := by
  rw [gatherSinks]
  cases gatherSinks rest <;> rfl

/-- A rejection is written down with the rest, and it is the one that counts. -/
theorem gatherSinks_rejected_cons {fault : Fault} (rejects : fault.kind = .sinkRejected)
    (rest : List (Except Fault SinkResult)) :
    gatherSinks (.error fault :: rest) =
      (gatherSinks rest).map fun heard => (rejection fault :: heard.1, some fault) := by
  rw [gatherSinks, if_pos rejects]
  cases gatherSinks rest <;> rfl

/-- A fault that is no rejection is all that is heard. -/
theorem gatherSinks_failed_cons {fault : Fault} (fails : fault.kind ≠ .sinkRejected)
    (rest : List (Except Fault SinkResult)) :
    gatherSinks (.error fault :: rest) = .error fault := by
  rw [gatherSinks, if_neg fails]

/-- A fan-out goes well if every sink accepts. -/
theorem gatherSinks_eq_ok_none {outcomes : List (Except Fault SinkResult)}
    {results : List SinkResult} (gathered : gatherSinks outcomes = .ok (results, none)) :
    Accepted outcomes := by
  induction outcomes generalizing results with
  | nil => exact fun _ inside => absurd inside List.not_mem_nil
  | cons outcome rest ih =>
      cases outcome with
      | error fault =>
          by_cases rejects : fault.kind = .sinkRejected
          · rw [gatherSinks_rejected_cons rejects] at gathered
            obtain ⟨_, _, same⟩ := Except.map_eq_ok.mp gathered
            exact nomatch (Prod.mk.inj same).2
          · rw [gatherSinks_failed_cons rejects] at gathered
            exact nomatch gathered
      | ok result =>
          rw [gatherSinks_ok_cons] at gathered
          obtain ⟨⟨others, rejected⟩, tail, same⟩ := Except.map_eq_ok.mp gathered
          obtain ⟨-, rfl⟩ := Prod.mk.inj same
          exact List.forall_mem_cons.mpr ⟨rfl, ih tail⟩

/-- A rejection comes from one of the sinks. -/
theorem gatherSinks_eq_ok_some {outcomes : List (Except Fault SinkResult)}
    {results : List SinkResult} {fault : Fault}
    (gathered : gatherSinks outcomes = .ok (results, some fault)) :
    .error fault ∈ outcomes ∧ fault.kind = .sinkRejected := by
  induction outcomes generalizing results with
  | nil => exact nomatch gathered
  | cons outcome rest ih =>
      cases outcome with
      | error other =>
          by_cases rejects : other.kind = .sinkRejected
          · rw [gatherSinks_rejected_cons rejects] at gathered
            obtain ⟨_, _, same⟩ := Except.map_eq_ok.mp gathered
            obtain rfl := Option.some.inj (Prod.mk.inj same).2
            exact ⟨List.mem_cons_self, rejects⟩
          · rw [gatherSinks_failed_cons rejects] at gathered
            exact nomatch gathered
      | ok result =>
          rw [gatherSinks_ok_cons] at gathered
          obtain ⟨⟨others, rejected⟩, tail, same⟩ := Except.map_eq_ok.mp gathered
          obtain ⟨-, rfl⟩ := Prod.mk.inj same
          obtain ⟨inside, kind⟩ := ih tail
          exact ⟨List.mem_cons_of_mem _ inside, kind⟩

theorem gatherSinks_of_accepted {outcomes : List (Except Fault SinkResult)}
    (accepted : Accepted outcomes) : ∃ results, gatherSinks outcomes = .ok (results, none) := by
  induction outcomes with
  | nil => exact ⟨[], rfl⟩
  | cons outcome rest ih =>
      cases outcome with
      | error fault => exact nomatch accepted _ List.mem_cons_self
      | ok result =>
          obtain ⟨results, tail⟩ := ih fun one inRest => accepted one (List.mem_cons_of_mem _ inRest)
          refine ⟨result :: results, ?_⟩
          rw [gatherSinks_ok_cons, tail]
          rfl

/-- A sink that is handed a value under a timeout may say this, as the world is when it is called. -/
def Answer (network : Network) (timeout : Option Timeout) (value : Value) (id : String)
    (outcome : Option (Except Fault SinkResult)) : Prop :=
  ∃ (w : World) (at_ : World.Location), (w.callSink network at_ id value timeout).1 = outcome

/-- The call of one more of several sinks. -/
def callNext (network : Network) (r : Run) (value : Value) (calls : List WholeCall × World)
    (id : String) : List WholeCall × World :=
  let wait := calls.2.sinkWait network id value r.timeout
  let called := { calls.2 with notices := [] }.callSink network r.location id value r.timeout
  (calls.1 ++ [⟨wait, called.1, called.2.notices⟩], called.2)

/-- Several calls add an answer for each sink, in order, and leave the store alone. -/
theorem foldl_callNext (network : Network) (r : Run) (value : Value) (sinks : List String)
    (before : List WholeCall × World) :
    ∃ calls, (sinks.foldl (callNext network r value) before).1 = before.1 ++ calls ∧
      List.Forall₂ (Answer network r.timeout value) sinks (calls.map WholeCall.outcome) ∧
      (sinks.foldl (callNext network r value) before).2.store = before.2.store := by
  induction sinks generalizing before with
  | nil => exact ⟨[], (List.append_nil _).symm, .nil, rfl⟩
  | cons id rest ih =>
      obtain ⟨calls, same, answers, store⟩ := ih (callNext network r value before id)
      refine ⟨⟨_, _, _⟩ :: calls, same.trans (List.append_assoc _ [_] calls), ?_, ?_⟩
      · exact .cons ⟨_, _, rfl⟩ answers
      · exact store.trans (World.callSink_store _ network r.location id value r.timeout)

/-- Several sinks that are called at once all give an answer, and leave the store alone. -/
theorem callSinks_answers (network : Network) (w : World) (r : Run) (value : Value)
    (sinks : List String) :
    List.Forall₂ (Answer network r.timeout value) sinks (callSinks network w r value sinks).1 ∧
      (callSinks network w r value sinks).2.store = w.store := by
  obtain ⟨calls, same, answers, store⟩ := foldl_callNext network r value sinks ([], w)
  have called : (callSinks network w r value sinks).1 =
      (sinks.foldl (callNext network r value) ([], w)).1.map WholeCall.outcome := rfl
  rw [called, same]
  exact ⟨answers, store⟩

theorem not_isDeclined_of_accepted {outcomes : List (Except Fault SinkResult)}
    (accepted : Accepted outcomes) : (outcomes.map some).any isDeclined = false := by
  rw [List.any_eq_false]
  intro given inside
  obtain ⟨outcome, inOutcomes, rfl⟩ := List.mem_map.mp inside
  cases outcome with
  | error fault => exact nomatch accepted _ inOutcomes
  | ok result => exact Bool.false_ne_true

end TaintFlow.Run
