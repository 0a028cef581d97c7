import TaintFlow.Proofs.Run.Journal

/-!
# Stored values are verified when they are read

A run that reads back what it has stored refuses a value that lacks a label of
the one that it stored last, and refuses nothing else for its labels, whatever
others do to the store meanwhile.  The main statement is `Journal.verifies`.
-/

namespace TaintFlow.Run

variable {network : Network} {rely : World → World → Prop} {w₀ w w' : World} {origin r r' : Run}
  {own : List Store.Edit} {store : Store} {ref : StoreRef} {p : Partition} {value : Value}
  {writtenAt : Int} {labels : LabelSet}

/-! ## One reading -/

/-- A reading is refused for labels that are missing. -/
def Loses {α : Type} (reading : Except Failure α) : Prop :=
  ∃ fault, reading = .error (.fault fault) ∧ fault.kind = .taintLoss

/-- What becomes of a reading where a value is live. -/
theorem load_of_place (place : ref.scope.partition (r.scopes.idFor ref.scope) = .ok p)
    (live : store.slot? p ref.key = some (.live value writtenAt)) :
    load network store r ref =
      match r.written.find? ref with
      | some labels =>
        if network.verifyLoads then
          match ensureLabels s!"{ref.scope.text}:{ref.key}" labels value (some r.next) with
          | .ok _ => .ok (value, r.entered value.labels)
          | .error fault => .error (.fault fault)
        else .ok (value, r.entered value.labels)
      | none => .ok (value, r.entered value.labels) := by
  have read : readSlot store p ref.key = .ok value := by
    unfold readSlot
    rw [live]
  unfold load
  rw [place]
  show (Except.mapError Failure.fault (readSlot store p ref.key) >>= _) = _
  rw [read]
  show (match r.written.find? ref with
    | some labels => _
    | none => _) = _
  cases r.written.find? ref with
  | none => rfl
  | some labels =>
      dsimp only
      cases network.verifyLoads with
      | false => rfl
      | true =>
          cases ensureLabels s!"{ref.scope.text}:{ref.key}" labels value (some r.next) with
          | ok _ => rfl
          | error fault => rfl

/-- Where there is no live value, the reading is refused for that. -/
theorem load_of_absent {fault : Fault}
    (place : ref.scope.partition (r.scopes.idFor ref.scope) = .ok p)
    (absent : readSlot store p ref.key = .error fault) :
    load network store r ref = .error (.fault fault) := by
  unfold load
  rw [place]
  show (Except.mapError Failure.fault (readSlot store p ref.key) >>= _) = _
  rw [absent]
  rfl

/-- A key has a live value, or reading it fails for another reason than missing labels. -/
theorem live_or_absent (store : Store) (p : Partition) (key : String) :
    (∃ value writtenAt, store.slot? p key = some (.live value writtenAt)) ∨
      ∃ fault, readSlot store p key = .error fault ∧ fault.kind ≠ .taintLoss := by
  unfold readSlot
  cases store.slot? p key with
  | none => exact .inr ⟨_, rfl, nofun⟩
  | some slot =>
      cases slot with
      | live value writtenAt => exact .inl ⟨value, writtenAt, rfl⟩
      | cleared => exact .inr ⟨_, rfl, nofun⟩

/-- A live value with all labels that are expected is read. -/
theorem load_of_complete (place : ref.scope.partition (r.scopes.idFor ref.scope) = .ok p)
    (live : store.slot? p ref.key = some (.live value writtenAt))
    (complete : network.verifyLoads = true →
      ∀ labels, r.written.find? ref = some labels → labels ⊆ value.labels) :
    load network store r ref = .ok (value, r.entered value.labels) := by
  rw [load_of_place place live]
  cases expected : r.written.find? ref with
  | none => rfl
  | some labels =>
      cases verifies : network.verifyLoads with
      | false => rfl
      | true => simp only [if_true, ensureLabels_eq_ok_iff.mpr (complete verifies labels expected)]

/-- A live value that lacks an expected label is refused for what it lacks. -/
theorem load_of_lacking (verifies : network.verifyLoads = true)
    (place : ref.scope.partition (r.scopes.idFor ref.scope) = .ok p)
    (live : store.slot? p ref.key = some (.live value writtenAt))
    (expected : r.written.find? ref = some labels) (lacks : ¬ labels ⊆ value.labels) :
    load network store r ref = .error (.fault
      ⟨.labelsLost s!"{ref.scope.text}:{ref.key}" (labels \ value.labels) (some r.next),
        some r.next⟩) := by
  have missing : (labels \ value.labels).isEmpty = false :=
    Bool.eq_false_iff.mpr fun none => lacks (SortedSet.isEmpty_diff_iff.mp none)
  rw [load_of_place place live, expected]
  simp only [verifies, if_true, ensureLabels, missingLabels, missing, Bool.false_eq_true, if_false]

/-- A reading is refused for missing labels just if a live value lacks an expected label. -/
theorem loses_load_iff : Loses (load network store r ref) ↔
    network.verifyLoads = true ∧ ∃ p value writtenAt labels,
      ref.scope.partition (r.scopes.idFor ref.scope) = .ok p ∧
      store.slot? p ref.key = some (.live value writtenAt) ∧
      r.written.find? ref = some labels ∧ ¬ labels ⊆ value.labels := by
  constructor
  · rintro ⟨fault, refused, kind⟩
    cases place : ref.scope.partition (r.scopes.idFor ref.scope) with
    | error mishap =>
        unfold load at refused
        rw [place] at refused
        cases refused
    | ok p =>
        rcases live_or_absent store p ref.key with ⟨value, writtenAt, live⟩ | ⟨other, absent, kind'⟩
        · by_contra fine
          rw [load_of_complete place live] at refused
          · cases refused
          · intro verifies labels expected
            by_contra lacks
            exact fine ⟨verifies, p, value, writtenAt, labels, rfl, live, expected, lacks⟩
        · rw [load_of_absent place absent] at refused
          cases refused
          exact absurd kind kind'
  · rintro ⟨verifies, p, value, writtenAt, labels, place, live, expected, lacks⟩
    exact ⟨_, load_of_lacking verifies place live expected lacks, rfl⟩

/-- A key is read just if a live value has all labels that are expected. -/
theorem isOk_load_iff : (load network store r ref).isOk = true ↔ ∃ p value writtenAt,
    ref.scope.partition (r.scopes.idFor ref.scope) = .ok p ∧
      store.slot? p ref.key = some (.live value writtenAt) ∧
      (network.verifyLoads = true →
        ∀ labels, r.written.find? ref = some labels → labels ⊆ value.labels) := by
  constructor
  · intro fine
    cases read : load network store r ref with
    | error failure =>
        rw [read] at fine
        cases fine
    | ok pair =>
        obtain ⟨-, p, writtenAt, place, live⟩ := load_eq_ok read
        refine ⟨p, pair.1, writtenAt, place, live, fun verifies labels expected => ?_⟩
        by_contra lacks
        rw [load_of_lacking verifies place live expected lacks] at read
        cases read
  · rintro ⟨p, value, writtenAt, place, live, complete⟩
    rw [load_of_complete place live complete]
    rfl

/-- A key is read just if a value is live there, unless it is refused for labels. -/
theorem isOk_load_iff_lives : (load network store r ref).isOk = true ↔
    (∃ value, Lives r.scopes store ref value) ∧ ¬ Loses (load network store r ref) := by
  rw [isOk_load_iff, loses_load_iff]
  constructor
  · rintro ⟨p, value, writtenAt, place, live, complete⟩
    refine ⟨⟨value, p, writtenAt, place, live⟩, ?_⟩
    rintro ⟨verifies, q, other, at_, labels, place', live', expected, lacks⟩
    obtain rfl := Except.ok.inj (place.symm.trans place')
    obtain ⟨rfl, -⟩ := Slot.live.inj (Option.some.inj (live.symm.trans live'))
    exact lacks (complete verifies labels expected)
  · rintro ⟨⟨value, p, writtenAt, place, live⟩, fine⟩
    refine ⟨p, value, writtenAt, place, live, fun verifies labels expected => ?_⟩
    by_contra lacks
    exact fine ⟨verifies, p, value, writtenAt, labels, place, live, expected, lacks⟩

/-! ## Several readings -/

/-- What else has entered a run does not matter to a reading. -/
theorem loses_load_entered (more : LabelSet) :
    Loses (load network store (r.entered more) ref) ↔ Loses (load network store r ref) := by
  rw [loses_load_iff, loses_load_iff]
  exact Iff.rfl

theorem isOk_load_entered (more : LabelSet) :
    (load network store (r.entered more) ref).isOk = true ↔
      (load network store r ref).isOk = true := by
  rw [isOk_load_iff, isOk_load_iff]
  exact Iff.rfl

/-- Several readings are refused for missing labels. -/
def LosesOne {α : Type} (readings : Except (Failure × Run) α) : Prop :=
  ∃ fault r, readings = .error (.fault fault, r) ∧ fault.kind = .taintLoss

/-- Several readings are refused for missing labels just if one is and all before it are not refused
at all. -/
theorem losesOne_loadAll_iff {loads : List StoreRef} {values : List Value} :
    LosesOne (loadAll network store r loads values) ↔
      ∃ before ref after, loads = before ++ ref :: after ∧ Loses (load network store r ref) ∧
        ∀ earlier ∈ before, (load network store r earlier).isOk = true := by
  induction loads generalizing r values with
  | nil =>
      constructor
      · rintro ⟨fault, _, refused, _⟩
        cases refused
      · rintro ⟨before, ref, after, split, _⟩
        simp at split
  | cons first rest ih =>
      unfold loadAll
      cases read : load network store r first with
      | error failure =>
          constructor
          · rintro ⟨fault, _, refused, kind⟩
            obtain ⟨rfl, rfl⟩ := Prod.mk.inj (Except.error.inj refused)
            refine ⟨[], first, rest, rfl, ⟨fault, read, kind⟩, fun earlier inside => ?_⟩
            cases inside
          · rintro ⟨before, ref, after, split, loses, fine⟩
            cases before with
            | nil =>
                obtain ⟨rfl, rfl⟩ := List.cons.inj split
                obtain ⟨fault, refused, kind⟩ := loses
                obtain rfl := Except.error.inj (read.symm.trans refused)
                exact ⟨fault, r, rfl, kind⟩
            | cons other before =>
                obtain ⟨rfl, -⟩ := List.cons.inj split
                have fine := fine first List.mem_cons_self
                rw [read] at fine
                cases fine
      | ok pair =>
          obtain ⟨value, r₁⟩ := pair
          obtain ⟨rfl, _⟩ := load_eq_ok read
          dsimp only
          rw [ih]
          simp only [loses_load_entered, isOk_load_entered]
          constructor
          · rintro ⟨before, ref, after, rfl, loses, fine⟩
            refine ⟨first :: before, ref, after, rfl, loses, fun earlier inside => ?_⟩
            rcases List.mem_cons.mp inside with rfl | later
            · rw [read]
              rfl
            · exact fine earlier later
          · rintro ⟨before, ref, after, split, loses, fine⟩
            cases before with
            | nil =>
                obtain ⟨rfl, rfl⟩ := List.cons.inj split
                obtain ⟨fault, refused, _⟩ := loses
                cases read.symm.trans refused
            | cons other before =>
                obtain ⟨rfl, rfl⟩ := List.cons.inj split
                exact ⟨before, ref, after, rfl, loses, fun earlier inside =>
                  fine earlier (List.mem_cons_of_mem _ inside)⟩

/-- The readings of a merge are refused for missing labels just if they have not been made and one of
them is. -/
theorem losesOne_mergeInputs_iff {loads : List StoreRef} :
    LosesOne (mergeInputs network store r loads) ↔ r.loaded = false ∧
      ∃ before ref after, loads = before ++ ref :: after ∧ Loses (load network store r ref) ∧
        ∀ earlier ∈ before, (load network store r earlier).isOk = true := by
  have same : LosesOne (mergeInputs network store r loads) ↔
      r.loaded = false ∧ LosesOne (loadAll network store r loads r.gathered) := by
    unfold mergeInputs LosesOne
    cases loaded : r.loaded with
    | true => simp
    | false =>
        simp only [Bool.false_eq_true, if_false, true_and]
        cases loadAll network store r loads r.gathered with
        | ok pair => simp
        | error pair => simp
  rw [same, losesOne_loadAll_iff]

/-! ## What a run verifies -/

/-- The value at a key of a run lacks a label of the one that the run last stored there. -/
def Spoilt (r : Run) (own : List Store.Edit) (store : Store) (ref : StoreRef) : Prop :=
  ∃ p value writtenAt latest, ref.scope.partition (r.scopes.idFor ref.scope) = .ok p ∧
    store.slot? p ref.key = some (.live value writtenAt) ∧ LastPut own p ref.key latest ∧
    ¬ latest.labels ⊆ value.labels

/-- What becomes of the readings of a run, after some edits that are its own. -/
structure Verifies (network : Network) (own : List Store.Edit) (store : Store) (r : Run) : Prop where
  /-- A reading is refused for labels just if its key has been spoilt. -/
  load : ∀ ref, Loses (load network store r ref) ↔
    network.verifyLoads = true ∧ r.Spoilt own store ref
  /-- So are those of a merge, up to the first that is refused. -/
  merge : ∀ loads, LosesOne (mergeInputs network store r loads) ↔
    r.loaded = false ∧ network.verifyLoads = true ∧ ∃ before ref after,
      loads = before ++ ref :: after ∧ r.Spoilt own store ref ∧
      ∀ earlier ∈ before, (∃ value, Lives r.scopes store earlier value) ∧
        ¬ r.Spoilt own store earlier
  /-- A live value under a key that the run has not stored is read as it is. -/
  foreign : ∀ {ref p value writtenAt},
    ref.scope.partition (r.scopes.idFor ref.scope) = .ok p →
    store.slot? p ref.key = some (.live value writtenAt) → (∀ e ∈ own, ¬ e.Puts p ref.key) →
    Run.load network store r ref = .ok (value, r.entered value.labels)

theorem exists_of_lastPut {key : String} (last : LastPut own p key value) :
    ∃ e ∈ own, e.Puts p key := by
  obtain ⟨writtenAt, before, e, after, rfl, rfl, _⟩ := last
  exact ⟨_, by simp, value, writtenAt, rfl⟩

/-- Verification is exact, however the run is interleaved with others. -/
theorem Journal.verifies (nothing : origin.written = [])
    (journal : Journal network rely w₀ origin own w r) (running : r.state = .running) :
    Verifies network own w.store r := by
  have written {ref : StoreRef} {p : Partition}
      (place : ref.scope.partition (r.scopes.idFor ref.scope) = .ok p) (labels : LabelSet) :
      r.written.find? ref = some labels ↔
        ∃ value, LastPut own p ref.key value ∧ value.labels = labels := by
    rw [journal.path.scopes_eq] at place
    refine journal.written_iff nothing ?_ place labels
    rw [running]
    rfl
  have exact_ (ref : StoreRef) : Loses (Run.load network w.store r ref) ↔
      network.verifyLoads = true ∧ r.Spoilt own w.store ref := by
    rw [loses_load_iff]
    refine and_congr_right fun _ => ?_
    constructor
    · rintro ⟨p, value, writtenAt, labels, place, live, expected, lacks⟩
      obtain ⟨latest, last, rfl⟩ := (written place labels).mp expected
      exact ⟨p, value, writtenAt, latest, place, live, last, lacks⟩
    · rintro ⟨p, value, writtenAt, latest, place, live, last, lacks⟩
      exact ⟨p, value, writtenAt, latest.labels, place, live,
        (written place latest.labels).mpr ⟨latest, last, rfl⟩, lacks⟩
  refine ⟨exact_, fun loads => ?_, fun {ref p value writtenAt} place live foreign => ?_⟩
  · rw [losesOne_mergeInputs_iff]
    simp only [isOk_load_iff_lives, exact_]
    cases network.verifyLoads with
    | false => simp
    | true => simp
  · refine load_of_complete place live fun _ labels expected => ?_
    obtain ⟨latest, last, _⟩ := (written place labels).mp expected
    obtain ⟨e, inside, puts⟩ := exists_of_lastPut last
    exact absurd puts (foreign e inside)

end TaintFlow.Run
