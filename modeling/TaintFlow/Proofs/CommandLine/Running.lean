import TaintFlow.CommandLine.Basic
import TaintFlow.Proofs.Folder
import TaintFlow.Proofs.Ledger.Record
import TaintFlow.Proofs.CommandLine.Opening
import TaintFlow.Proofs.Harness.Many
import TaintFlow.Proofs.Harness.Refusal
import TaintFlow.Proofs.Store.Slots

/-!
# Runs in a session

Chains are run one after the other in one session, each run is recorded before
the next one starts, and in the end the session is cleared.  The main statements
are `Going.runEach` and `Recorded.results`.
-/

namespace TaintFlow.CommandLine.Book

/-!
## The ledger of a command

A ledger that has been opened at a path can be written to its file from then on,
and after each run the file holds what the ledger does.  The main statements are
`lasts_of_start` and `record_of_admits`.
-/

variable {folder folder' : Folder} {b b' : Book} {path? : Option Path} {r : RunResult} {record : Json}

/-- The file of a ledger at a path holds what the ledger does. -/
def Kept (folder : Folder) (b : Book) : Prop :=
  ∀ path ∈ b.path, folder.file? path = some (.ledger b.ledger.rows)

/-- A ledger at a path has a file, into which something can be written. -/
structure Lasts (folder : Folder) (b : Book) : Prop where
  keeps : b.path ≠ some passing
  writable : ∀ path ∈ b.path, ∃ content after, folder.write path content = .ok after

/-- A ledger is saved in its file, if it is one that is kept. -/
theorem save_eq_ok (keeps : b.path ≠ some passing) : b.save folder = .ok folder' ↔
    b.path = none ∧ folder' = folder ∨
      ∃ path, b.path = some path ∧ folder.write path (.ledger b.ledger.rows) = .ok folder' := by
  unfold save
  cases at_ : b.path with
  | none =>
      constructor
      · exact fun same => .inl ⟨rfl, (Except.ok.inj same).symm⟩
      · rintro (⟨_, rfl⟩ | ⟨_, other, _⟩)
        · rfl
        · cases other
  | some path =>
      have other : path ≠ passing := fun same => keeps (at_.trans (congrArg some same))
      dsimp only
      rw [if_neg other]
      constructor
      · intro same
        split at same
        · rename_i written
          exact .inr ⟨path, rfl, written.trans (congrArg Except.ok (Except.ok.inj same))⟩
        · cases same
      · rintro (⟨none, _⟩ | ⟨_, same, written⟩)
        · cases none
        · obtain rfl := Option.some.inj same
          rw [written]

/-- Saving makes no folders, and the ledger is kept and can be saved again. -/
theorem lasts_of_save (keeps : b.path ≠ some passing) (saved : b.save folder = .ok folder') :
    folder.Alike folder' ∧ b.Lasts folder' ∧ b.Kept folder' := by
  rcases (save_eq_ok keeps).mp saved with ⟨none, rfl⟩ | ⟨path, at_, written⟩
  · refine ⟨.refl _, ⟨keeps, fun path inside => ?_⟩, fun path inside => ?_⟩
    · cases none.symm.trans inside
    · cases none.symm.trans inside
  · have alike := Folder.alike_of_write written
    refine ⟨alike, ⟨keeps, fun path' inside => ?_⟩, fun path' inside => ?_⟩
    · obtain rfl : path = path' := Option.some.inj (at_.symm.trans inside)
      exact ⟨.ledger [], alike.write written _⟩
    · obtain rfl : path = path' := Option.some.inj (at_.symm.trans inside)
      exact Folder.file?_of_write written

/-- A ledger that lasts can be saved, whatever its rows. -/
theorem Lasts.save (lasts : b.Lasts folder) (ledger : Ledger) :
    ∃ after, ({ b with ledger } : Book).save folder = .ok after := by
  have saves {after : Folder} := @save_eq_ok folder after { b with ledger } lasts.keeps
  rcases Option.eq_none_or_eq_some b.path with none | ⟨path, at_⟩
  · exact ⟨folder, saves.mpr (.inl ⟨none, rfl⟩)⟩
  · obtain ⟨_, _, written⟩ := lasts.writable path at_
    obtain ⟨after, again⟩ := (Folder.Alike.refl folder).write written (.ledger ledger.rows)
    exact ⟨after, saves.mpr (.inr ⟨path, at_, again⟩)⟩

/-- A ledger at a path is saved when it is opened, with the rows that its file held. -/
theorem start_some {path : Path} (started : start folder (some path) = .ok (b, folder')) :
    ∃ rows, b = ⟨{ filed := true, rows }, some path⟩ ∧ b.save folder = .ok folder' := by
  have opens (rows : List LedgerRow) (opened : (do
      return (⟨{ filed := true, rows }, some path⟩,
        ← (⟨{ filed := true, rows }, some path⟩ : Book).save folder)) = Except.ok (b, folder')) :
      ∃ rows, b = ⟨{ filed := true, rows }, some path⟩ ∧ b.save folder = .ok folder' := by
    obtain ⟨after, saved, same⟩ := Except.bind_pure_eq_ok.mp opened
    cases same
    exact ⟨rows, rfl, saved⟩
  simp only [start] at started
  split at started
  · cases started
  · split at started
    · exact opens [] started
    · exact opens _ started
    · split at started
      · exact opens [] started
      · cases started

/-- A ledger that could be opened, at a path that keeps one, lasts. -/
theorem lasts_of_start (started : start folder path? = .ok (b, folder'))
    (keeps : b.path ≠ some passing) :
    folder.Alike folder' ∧ b.Lasts folder' ∧ b.Kept folder' ∧ b.path = path? ∧
      b.ledger.filed = path?.isSome := by
  cases path? with
  | none =>
      cases started
      exact ⟨.refl folder, ⟨keeps, nofun⟩, nofun, rfl, rfl⟩
  | some path =>
      obtain ⟨rows, rfl, saved⟩ := start_some started
      obtain ⟨alike, lasts, kept⟩ := lasts_of_save keeps saved
      exact ⟨alike, lasts, kept, rfl, rfl⟩

/-- The ledger with a further run. -/
def adding (b : Book) (r : RunResult) (record : Json) : Book :=
  { b with ledger.rows := b.ledger.rows ++ [.of b.ledger.filed r record] }

/-- A run that the ledger admits is recorded, and the ledger is kept. -/
theorem record_of_admits (lasts : b.Lasts folder) (made : r.toRecord = .ok record)
    (admits : b.ledger.Admits r record) : ∃ after, b.record folder r = .ok (b.adding r record, after) ∧
      folder.Alike after ∧ (b.adding r record).Lasts after ∧ (b.adding r record).Kept after := by
  obtain ⟨after, saved⟩ := lasts.save (b.adding r record).ledger
  refine ⟨after, ?_, lasts_of_save lasts.keeps saved⟩
  unfold Book.record
  rw [Ledger.record_eq_ok.mpr ⟨record, made, admits, rfl⟩]
  exact Except.bind_pure_eq_ok.mpr ⟨after, saved, rfl⟩

/-- A run that the ledger does not admit is not recorded. -/
theorem record_of_not_admits (made : r.toRecord = .ok record) (refuses : ¬ b.ledger.Admits r record) :
    ∃ mishap, b.record folder r = .error mishap := by
  cases kept : b.record folder r with
  | error mishap => exact ⟨mishap, rfl⟩
  | ok both =>
      obtain ⟨ledger, taken, _⟩ := Except.bind_eq_ok.mp kept
      obtain ⟨other, same, admits, _⟩ := Ledger.record_eq_ok.mp taken
      obtain rfl := Except.ok.inj (made.symm.trans same)
      exact absurd admits refuses

end TaintFlow.CommandLine.Book

namespace TaintFlow.CommandLine

open Harness (idAfter)

variable {session id : String} {ids rest : List String} {h : Harness} {c : Chain}
  {folder : Folder} {p p' : Progress} {r : RunResult} {record : Json}

/-! ## One run -/

/-- An attempt to run a chain in a session, under an execution id that is made up for it. -/
def attempt (session : String) (h : Harness) (id : String) : Harness.Attempt :=
  h.issuing.runChain id ⟨idAfter h.issued 32, some session⟩

/-- A chain that has been defined is run in a session with a name, under ids that have just been made
up, unless it waits for something that it calls. -/
theorem attempt_cases (sound : h.Sound) (idle : h.loop.isIdle = true) (named : session ≠ "")
    (found : h.chains.find? id = some c) :
    (∃ world r, attempt session h id = .returned { h.issuing.issuing with world } r ∧
      Run.Told c r ∧ r.identity = (idAfter (h.issued + 1) 32, id, c.expected,
        ⟨idAfter h.issued 32, some session⟩)) ∨
    (∃ world, attempt session h id = .stalled { h.issuing.issuing with world }) ∧
      c.MayHang h.network .null none := by
  let scopes : RunScopes := ⟨idAfter h.issued 32, some session⟩
  let runId := idAfter (h.issued + 1) 32
  have ran : attempt session h id = h.issuing.issuing.concluded
      ((Run.fresh c scopes runId .null none).run h.network h.world) :=
    Harness.runChain_of_find? (h := h.issuing) idle found (fun _ => Option.some_ne_none session)
      .null none
  have provided : Run.Provided c scopes :=
    ⟨Harness.idAfter_ne_empty h.issued, fun _ => ⟨session, rfl, named⟩⟩
  have holds := sound.holds _ (Assoc.mem_iff_find? sound.once |>.mpr found)
  rcases Run.returned_or_stalled h.network h.world c provided runId .null none with
    ⟨w, r, returned, _⟩ | ⟨⟨w, r, stalled⟩, hangs⟩
  · rw [returned] at ran
    obtain ⟨log, returned⟩ : ∃ log, Run.Returned h.network (fun _ _ => True) _ log r.result :=
      Run.returned_of_run returned
    obtain ⟨w₀, w', r', path, finished, same⟩ := returned.path rfl
    have told := path.told holds.valid (Run.untold_fresh c scopes runId .null none) rfl finished
    refine .inl ⟨w, r.result, ran, same ▸ told, ?_⟩
    rw [← same, path.identity_eq, show id = c.id from holds.named]
    rfl
  · rw [stalled] at ran
    exact .inr ⟨⟨w, ran⟩, hangs⟩

/-- A chain is run in a session, and the run is recorded. -/
structure Logs (session id : String) (p p' : Progress) (r : RunResult) (record : Json) : Prop where
  returned : attempt session p.h id = .returned p'.h r
  chain : r.chain = id
  session : r.scopes.session = some session
  made : r.toRecord = .ok record
  book : p'.book = p.book.adding r record
  kept : p'.book.Kept p'.folder
  results : p'.results = p.results ++ [r]

/-- Chains are run in a session one after the other, and each run is recorded before the next one
starts. -/
inductive Recorded (session : String) : List String → Progress → Progress → Prop
  | none (p : Progress) : Recorded session [] p p
  | run {id : String} {rest : List String} {p p' p'' : Progress} {r : RunResult} {record : Json}
      (first : Logs session id p p' r record) (later : Recorded session rest p' p'') :
      Recorded session (id :: rest) p p''

/-- The result of a run that comes up when chains are run one after the other, all of those before
it recorded. -/
inductive ComesUp (session : String) : List String → Progress → RunResult → Prop
  | first {id : String} {rest : List String} {p : Progress} {h : Harness} {r : RunResult}
      (returned : attempt session p.h id = .returned h r) : ComesUp session (id :: rest) p r
  | later {id : String} {rest : List String} {p p' : Progress} {r r' : RunResult} {record : Json}
      (first : Logs session id p p' r record) (up : ComesUp session rest p' r') :
      ComesUp session (id :: rest) p r'

/-- A run comes up whose record holds a number that is too long for a text. -/
def TooLong (session : String) (ids : List String) (p : Progress) : Prop :=
  ∃ r record, ComesUp session ids p r ∧ r.toRecord = .ok record ∧ record.isWritable = false

/-- Where runs have come to: what was registered and defined still is, nothing goes on in the loop,
the ledger is kept, and the ids that are made up from now on are new to it. -/
structure Going (h : Harness) (folder : Folder) (p : Progress) : Prop where
  network : p.h.network = h.network
  chains : p.h.chains = h.chains
  idle : p.h.loop.isIdle = true
  alike : folder.Alike p.folder
  lasts : p.book.Lasts p.folder
  kept : p.book.Kept p.folder
  new : ∀ row ∈ p.book.ledger.rows, ∀ n, p.h.issued ≤ n → row.runId ≠ idAfter n 32

/-- The chain of an id can be recorded with all its steps. -/
def Defined (h : Harness) (id : String) : Prop :=
  ∃ c, h.chains.find? id = some c ∧ ∀ step ∈ c.steps, step.Recordable

/-- The chain of one of the ids calls something that may never answer. -/
def Hangs (h : Harness) (ids : List String) : Prop :=
  ∃ id ∈ ids, ∃ c, h.chains.find? id = some c ∧ c.MayHang h.network .null none

theorem runEach_cons : runEach session (id :: rest) p =
    match attempt session p.h id with
    | .raised h failure => ({ p with h }, some (.failed failure))
    | .stalled h => ({ p with h }, some .stalled)
    | .returned h r =>
      match p.book.record p.folder r with
      | .error mishap => ({ p with h }, some (.failed (.mishap mishap)))
      | .ok (book, folder) =>
        runEach session rest { h, book, folder, results := p.results ++ [r] } := rfl

/-- So it is after one more run is recorded under the id that was made up for it. -/
theorem Going.recorded (going : Going h folder p) {world : World} {r : RunResult} {record : Json}
    {after : Folder} (runId : r.runId = idAfter (p.h.issued + 1) 32)
    (alike : p.folder.Alike after) (lasts : (p.book.adding r record).Lasts after)
    (kept : (p.book.adding r record).Kept after) :
    Going h folder
      { h := { p.h.issuing.issuing with world }, book := p.book.adding r record, folder := after
        results := p.results ++ [r] } where
  network := going.network
  chains := going.chains
  idle := going.idle
  alike := going.alike.trans alike
  lasts := lasts
  kept := kept
  new := by
    intro row inside n more
    have more : p.h.issued + 2 ≤ n := more
    rcases List.mem_append.mp inside with before | last
    · exact going.new row before n (by omega)
    · obtain rfl := List.mem_singleton.mp last
      intro same
      have := Harness.idAfter_injective (runId.symm.trans same)
      omega

/-- One run is recorded, or it is never done, or its record does not fit into the file of the
ledger. -/
theorem Going.step (going : Going h folder p) (sound : h.Sound) (named : session ≠ "")
    (encodable : p.book.ledger.filed = true → Text.hasHalf session.toList = false)
    (defined : Defined h id) (rest : List String) :
    (∃ p' r record, runEach session (id :: rest) p = runEach session rest p' ∧
      Logs session id p p' r record ∧ Going h folder p') ∨
    (∃ p', runEach session (id :: rest) p = (p', some .stalled)) ∧ Hangs h [id] ∨
    (∃ p' mishap, runEach session (id :: rest) p = (p', some (.failed (.mishap mishap)))) ∧
      p.book.ledger.filed = true ∧ TooLong session [id] p := by
  obtain ⟨c, found, recordable⟩ := defined
  have sound : p.h.Sound := (Harness.Grown.of_same going.network going.chains).sound sound
  rcases attempt_cases sound going.idle named (going.chains ▸ found) with
    ⟨world, r, returned, told, identity⟩ | ⟨⟨world, stalled⟩, hangs⟩
  · obtain ⟨runId, chain, _, scopes⟩ : r.runId = idAfter (p.h.issued + 1) 32 ∧ r.chain = id ∧
        r.expected = c.expected ∧ r.scopes = ⟨idAfter p.h.issued 32, some session⟩ := by
      simpa [RunResult.identity] using identity
    obtain ⟨record, made⟩ : ∃ record, r.toRecord = .ok record := by
      refine RunResult.exists_toRecord.mpr fun shown inside => recordable _ ?_
      have shownStep := List.mem_map_of_mem (f := StepTrace.step) inside
      rw [told.ordered.map_step] at shownStep
      exact List.mem_of_mem_take shownStep
    have unknown : ∀ row ∈ p.book.ledger.rows, row.runId ≠ r.runId := fun row inside =>
      runId ▸ going.new row inside _ (Nat.le_succ _)
    by_cases fits : p.book.ledger.filed = true → record.isWritable = true
    · have admits : p.book.ledger.Admits r record := by
        refine fun filed => ⟨fits filed, fun text inside => ?_, unknown⟩
        rw [scopes] at inside
        rcases List.mem_cons.mp inside with rfl | inside
        · exact Harness.hasHalf_idAfter _
        · exact List.mem_singleton.mp inside ▸ encodable filed
      obtain ⟨after, kept, alike, lasts, file⟩ := Book.record_of_admits going.lasts made admits
      have next : runEach session (id :: rest) p = runEach session rest
          { h := { p.h.issuing.issuing with world }, book := p.book.adding r record, folder := after
            results := p.results ++ [r] } := by
        rw [runEach_cons, returned]
        dsimp only
        rw [kept]
      refine .inl ⟨_, r, record, next,
        ⟨returned, chain, congrArg RunScopes.session scopes, made, rfl, file, rfl⟩,
        going.recorded runId alike lasts file⟩
    · obtain ⟨filed, long⟩ := Classical.not_imp.mp fits
      have long : record.isWritable = false := Bool.not_eq_true _ ▸ long
      obtain ⟨mishap, refused⟩ : ∃ mishap, p.book.record p.folder r = .error mishap :=
        Book.record_of_not_admits made fun admits => fits fun filed => (admits filed).1
      have failed : runEach session (id :: rest) p =
          ({ p with h := { p.h.issuing.issuing with world } }, some (.failed (.mishap mishap))) := by
        rw [runEach_cons, returned]
        dsimp only
        rw [refused]
      exact .inr (.inr ⟨⟨_, mishap, failed⟩, filed, r, record, .first returned, made, long⟩)
  · have mayHang : Hangs h [id] := ⟨id, List.mem_singleton_self id, c, found, going.network ▸ hangs⟩
    exact .inr (.inl ⟨⟨_, by rw [runEach_cons, stalled]⟩, mayHang⟩)

/-! ## All runs -/

/-- All runs are recorded, or one is never done, or one has a record that does not fit into the file
of the ledger. -/
theorem Going.runEach (going : Going h folder p) (sound : h.Sound) (named : session ≠ "")
    (encodable : p.book.ledger.filed = true → Text.hasHalf session.toList = false)
    (defined : ∀ id ∈ ids, Defined h id) :
    (∃ p', runEach session ids p = (p', none) ∧ Recorded session ids p p' ∧ Going h folder p') ∨
    (∃ p', runEach session ids p = (p', some .stalled)) ∧ Hangs h ids ∨
    (∃ p' mishap, runEach session ids p = (p', some (.failed (.mishap mishap)))) ∧
      p.book.ledger.filed = true ∧ TooLong session ids p := by
  induction ids generalizing p with
  | nil => exact .inl ⟨p, rfl, .none p, going⟩
  | cons id rest ih =>
      obtain ⟨first, others⟩ := List.forall_mem_cons.mp defined
      rcases going.step sound named encodable first rest with
        ⟨p₁, r, record, same, logs, going₁⟩ | ⟨⟨p', stalled⟩, id', here, c, found, hangs⟩ |
        ⟨failed, filed, r, record, up, long⟩
      · have filed : p₁.book.ledger.filed = p.book.ledger.filed := by rw [logs.book]; rfl
        rw [same]
        rcases ih going₁ (filed ▸ encodable) others with ⟨p', ran, recorded, going'⟩ |
          ⟨stalled, id', inside, hangs⟩ | ⟨failed, kept, r', record', up, long⟩
        · exact .inl ⟨p', ran, .run logs recorded, going'⟩
        · exact .inr (.inl ⟨stalled, id', List.mem_cons_of_mem _ inside, hangs⟩)
        · exact .inr (.inr ⟨failed, filed ▸ kept, r', record', .later logs up, long⟩)
      · obtain rfl := List.mem_singleton.mp here
        exact .inr (.inl ⟨⟨p', stalled⟩, id', List.mem_cons_self, c, found, hangs⟩)
      · refine .inr (.inr ⟨failed, filed, r, record, ?_, long⟩)
        cases up with
        | first returned => exact .first returned
        | later _ up => cases up

/-- What has been recorded: a result for each id, in order, all in the session, and a row for each
result. -/
theorem Recorded.results (recorded : Recorded session ids p p') :
    ∃ results records, p'.results = p.results ++ results ∧ results.map RunResult.chain = ids ∧
      (∀ r ∈ results, r.scopes.session = some session) ∧
      results.mapM RunResult.toRecord = .ok records ∧
      p'.book.ledger = { p.book.ledger with
        rows := p.book.ledger.rows ++ List.zipWith (.of p.book.ledger.filed) results records } := by
  induction recorded with
  | none p =>
      refine ⟨[], [], (List.append_nil _).symm, rfl, fun _ inside => absurd inside List.not_mem_nil,
        rfl, ?_⟩
      rw [List.zipWith_nil_left, List.append_nil]
  | @run id rest p p₁ p' r record first _ ih =>
      obtain ⟨results, records, all, chains, sessions, made, ledger⟩ := ih
      refine ⟨r :: results, record :: records, ?_, ?_, ?_, ?_, ?_⟩
      · rw [all, first.results, List.append_assoc, List.singleton_append]
      · rw [List.map_cons, first.chain, chains]
      · exact List.forall_mem_cons.mpr ⟨first.session, sessions⟩
      · rw [List.mapM_cons, first.made, made]
        rfl
      · rw [ledger, first.book]
        show Ledger.mk _ _ = Ledger.mk _ _
        rw [List.zipWith_cons_cons, List.append_cons]
        rfl

/-- Every result is that of a run that came up. -/
theorem Recorded.comesUp (recorded : Recorded session ids p p') (inside : r ∈ p'.results) :
    r ∈ p.results ∨ ComesUp session ids p r := by
  induction recorded with
  | none p => exact .inl inside
  | @run id rest p p₁ p' r₁ record first _ ih =>
      rcases ih inside with before | up
      · rw [first.results] at before
        rcases List.mem_append.mp before with before | last
        · exact .inl before
        · exact .inr (List.mem_singleton.mp last ▸ .first first.returned)
      · exact .inr (.later first up)

/-! ## The end of the session -/

/-- The harness with everything in a session cleared. -/
def ended (session : String) (h : Harness) : Harness :=
  let cleared := h.world.edit {} (.clearAll ⟨.session, session⟩)
  let dropped := h.world.store.liveCount ⟨.session, session⟩
  { h with world := cleared.say {} (.sessionEnded session dropped) }

theorem endSession_of_named (named : session ≠ "") (h : Harness) :
    ∃ dropped, h.endSession session = .ok (dropped, ended session h) := by
  have place : Scope.session.partition (some session) = .ok ⟨.session, session⟩ := if_neg named
  exact ⟨h.world.store.liveCount ⟨.session, session⟩,
    Except.bind_eq_ok.mpr ⟨_, place, rfl⟩⟩

theorem isLive_ended (session : String) (h : Harness) (key : String) :
    (ended session h).world.store.isLive ⟨.session, session⟩ key = false := by
  have cleared : (ended session h).world.store =
      h.world.store.apply (.clearAll ⟨.session, session⟩) := h.world.edit_store {} (.clearAll _)
  rw [Store.isLive, cleared, Store.slot?_apply, Store.Edit.onSlot, if_pos rfl]
  cases h.world.store.slot? ⟨.session, session⟩ key with
  | none => rfl
  | some slot => rfl

theorem runSession_of_stalled {p' : Progress} (stalled : runEach session ids p = (p', some .stalled)) :
    runSession session ids p = (p', some .stalled) := by
  rw [runSession, stalled]

/-- After runs that are done the session is ended. -/
theorem runSession_of_done {p' : Progress} {stop : Option Stop}
    (done : runEach session ids p = (p', stop)) (comes : stop ≠ some .stalled) :
    runSession session ids p = endRuns session p' stop := by
  rw [runSession, done]
  rcases stop with _ | failure | _
  · rfl
  · rfl
  · exact absurd rfl comes

theorem endRuns_of_named (named : session ≠ "") (p : Progress) (stop : Option Stop) :
    endRuns session p stop = ({ p with h := ended session p.h }, stop) := by
  obtain ⟨dropped, done⟩ := endSession_of_named named p.h
  rw [endRuns, done]

end TaintFlow.CommandLine
