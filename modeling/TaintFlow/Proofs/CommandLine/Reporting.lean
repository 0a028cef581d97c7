import TaintFlow.Proofs.CommandLine.Running

/-!
# What the run command reports

One result is printed for each run, in the order of the choice, and the status
tells whether all runs were completed.  The main statement is `run_reports`;
after it comes what becomes of a session without a name.
-/

namespace TaintFlow.CommandLine

open Harness (idAfter)

variable {session id : String} {ids : List String} {h : Harness} {folder : Folder} {p : Progress}

/-! ## What is printed -/

/-- One result is printed for each run, in order: as its record, or as a line, followed by lines about
all runs. -/
def Prints (request : Request) (results : List RunResult) (out : Printout) : Prop :=
  if request.asJson then ∃ runs, results.mapM RunResult.toRecord = .ok runs ∧ out = .records runs
  else ∃ further, out = .text (lines (results.map resultLine ++ further))

theorem prints_of_report {request : Request} {out : Printout} (told : report request p = .ok out) :
    Prints request p.results out := by
  unfold Prints
  unfold report at told
  split
  · rename_i asJson
    rw [if_pos asJson] at told
    obtain ⟨runs, all, told⟩ := Except.bind_eq_ok.mp told
    obtain ⟨_, told⟩ := Except.check_eq_ok.mp told
    exact ⟨runs, all, Except.pure_eq_ok.mp told⟩
  · rename_i asText
    rw [if_neg asText] at told
    obtain rfl := Except.ok.inj told
    exact ⟨_, by rw [List.append_assoc]⟩

/-- What has been recorded is reported, unless records are asked for and one is too long. -/
theorem report_or_tooLong (request : Request) {start : Progress}
    (recorded : Recorded session ids start p) (first : start.results = []) (q : Progress)
    (same : q.results = p.results) :
    (∃ out, report request q = .ok out) ∨
      (∃ mishap, report request q = .error mishap) ∧ request.asJson = true ∧
        TooLong session ids start := by
  cases told : report request q with
  | ok out => exact .inl ⟨out, rfl⟩
  | error mishap =>
      have asJson : request.asJson = true := by
        by_contra asText
        unfold report at told
        rw [if_neg asText] at told
        cases told
      refine .inr ⟨⟨mishap, rfl⟩, asJson, ?_⟩
      have failed : ¬ ∃ out, report request q = .ok out := by
        rintro ⟨out, other⟩
        cases told.symm.trans other
      rw [exists_report asJson, same] at failed
      obtain ⟨r, failed⟩ := not_forall.mp failed
      obtain ⟨inside, failed⟩ := Classical.not_imp.mp failed
      obtain ⟨results, records, all, _, _, made, _⟩ := recorded.results
      obtain rfl : p.results = results := by rw [all, first, List.nil_append]
      obtain ⟨record, one⟩ := Except.exists_mapM_eq_ok.mp ⟨records, made⟩ r inside
      refine ⟨r, record, ?_, one, ?_⟩
      · refine (recorded.comesUp inside).resolve_left fun before => ?_
        rw [first] at before
        cases before
      · exact Bool.eq_false_iff.mpr fun writable => failed ⟨record, one, writable⟩

/-- The results of a run command: all runs were recorded, the ledger is kept, the results and the rows
are in the order of the chains, nothing is left of the session, and the status tells whether all runs
were completed. -/
structure Reported (request : Request) (s : Settings) (ids : List String) (start p : Progress)
    (ending : Ending) (folder : Folder) : Prop where
  recorded : ∃ h, Recorded request.session ids start { p with h } ∧ p.h = ended request.session h
  chains : p.results.map RunResult.chain = ids
  sessions : ∀ r ∈ p.results, r.scopes.session = some request.session
  rows : ∃ records, p.results.mapM RunResult.toRecord = .ok records ∧
    p.book.ledger.rows = start.book.ledger.rows ++
      List.zipWith (.of start.book.ledger.filed) p.results records
  kept : p.book.Kept p.folder
  cleared : ∀ key, p.h.world.store.isLive ⟨.session, request.session⟩ key = false
  printed : ∃ out, ending = .finished out (p.results.all RunResult.completed) ∧
    Prints request p.results out
  status : ending.status = if ∀ r ∈ p.results, r.state = .completed then 0 else 1
  metrics : writeMetrics request s p = .ok folder

theorem status_finished (out : Printout) (results : List RunResult) :
    (Ending.finished out (results.all RunResult.completed)).status =
      if ∀ r ∈ results, r.state = .completed then 0 else 1 := by
  have all : results.all RunResult.completed = true ↔ ∀ r ∈ results, r.state = .completed := by
    rw [List.all_eq_true]
    exact forall₂_congr fun r _ => decide_eq_true_iff
  split
  · rename_i every
    rw [all.mpr every]
    rfl
  · rename_i some_
    rw [Bool.eq_false_iff.mpr (mt all.mp some_)]
    rfl

/-- Where counters can be written at first they can be written after the runs. -/
theorem exists_writeMetrics (request : Request) (s : Settings) (alike : folder.Alike p.folder)
    (writable : ∀ path ∈ request.metricsOut,
      ∃ content after, folder.write path content = .ok after) :
    ∃ after, writeMetrics request s p = .ok after := by
  unfold writeMetrics
  cases wanted : request.metricsOut with
  | none => exact ⟨_, rfl⟩
  | some path =>
      obtain ⟨_, _, written⟩ := writable path wanted
      dsimp only
      split
      · exact alike.write written _
      · exact ⟨_, rfl⟩

/-! ## The command -/

/-- The ids of the chains to run, in order. -/
def planned (request : Request) (h : Harness) : List String :=
  (List.replicate request.repeats (selection request h)).flatten

/-- A run command that has opened its harness, has chains to run, and has opened the ledger to record
them in. -/
structure Ready (d : Desk) (args : List String) (request : Request) (s : Settings) (h : Harness)
    (book : Book) (folder : Folder) : Prop where
  asked : Request.ofArguments d.folder args = .ok request
  command : request.command = .run
  opened : Opening.run d.folder d.env request.config request.catalogs d.issued = .opened s h
  level : ∃ threshold, Threshold.read (.text s.logging.level) = .ok threshold
  chosen : selection request h ≠ []
  started : Book.start d.folder (request.ledger.or s.ledger) = .ok (book, folder)

variable {d : Desk} {args : List String} {request : Request} {s : Settings} {book : Book}

/-- A command that is ready runs its chains in the session. -/
theorem Ready.run_eq (ready : Ready d args request s h book folder) :
    run d args =
      match runSession request.session (planned request h) { h, book, folder } with
      | (p, some (.failed failure)) =>
        (endOfFailure failure, { d with folder := p.folder, issued := p.h.issued })
      | (p, some .stalled) => (.stalled, { d with folder := p.folder, issued := p.h.issued })
      | (p, none) =>
        match report request p, writeMetrics request s p with
        | .error mishap, _ | .ok _, .error mishap =>
          (.crashed (.mishap mishap), { d with folder := p.folder, issued := p.h.issued })
        | .ok out, .ok folder => (.finished out (p.results.all RunResult.completed),
          { d with folder, issued := p.h.issued }) := by
  obtain ⟨threshold, level⟩ := ready.level
  rw [run, ready.asked]
  dsimp only
  rw [answer, ready.opened]
  dsimp only
  rw [ready.command]
  dsimp only
  rw [runChains, level]
  dsimp only
  rw [if_neg (mt List.isEmpty_iff.mp ready.chosen), ready.started]
  dsimp only
  rw [planned]
  rcases runSession _ _ _ with ⟨p, _ | failure | _⟩
  · dsimp only
    cases report request p with
    | error mishap => rfl
    | ok out =>
        cases writeMetrics request s p with
        | error mishap => rfl
        | ok folder => rfl
  · rfl
  · rfl

/-- **What the run command reports.**  The command is given chains that are defined, with parameters
that can be recorded, and a session that has a name; the ledger is one that is kept, and the counters
can be written if they are asked for.  Then each chain is run, as often as asked and in the order
asked for, each run is recorded before the next one starts, one result is printed for each, the
session is cleared, and the status tells whether all runs were completed: unless a chain calls
something that never answers, or a run has a record with a number that is too long for a text, which
a ledger in a file and printed records do not take. -/
theorem run_reports (ready : Ready d args request s h book folder)
    (defined : ∀ id ∈ selection request h, Defined h id) (named : request.session ≠ "")
    (keeps : book.path ≠ some Book.passing)
    (encodable : book.ledger.filed = true → Text.hasHalf request.session.toList = false)
    (new : ∀ row ∈ book.ledger.rows, ∀ n, h.issued ≤ n → row.runId ≠ idAfter n 32)
    (writable : ∀ path ∈ request.metricsOut,
      ∃ content after, folder.write path content = .ok after) :
    (∃ p, runSession request.session (planned request h) { h, book, folder } = (p, none) ∧
      Reported request s (planned request h) { h, book, folder } p (run d args).1
        (run d args).2.folder) ∨
    (run d args).1 = .stalled ∧ Hangs h (planned request h) ∨
    (∃ mishap, (run d args).1 = .crashed (.mishap mishap)) ∧
      (book.ledger.filed = true ∨ request.asJson = true) ∧
      TooLong request.session (planned request h) { h, book, folder } := by
  obtain ⟨sound, idle⟩ := Opening.opened_of_run ready.opened
  obtain ⟨_, lasts, kept, _⟩ := Book.lasts_of_start ready.started keeps
  have going : Going h folder { h, book, folder } :=
    ⟨rfl, rfl, idle, .refl folder, lasts, kept, new⟩
  have all : ∀ id ∈ planned request h, Defined h id := fun id inside => by
    obtain ⟨_, one, inside⟩ := List.mem_flatten.mp inside
    exact defined id ((List.mem_replicate.mp one).2 ▸ inside)
  have ran := ready.run_eq
  rcases going.runEach sound named encodable all with
    ⟨p, same, recorded, going'⟩ | ⟨⟨p, same⟩, hangs⟩ | ⟨⟨p, mishap, same⟩, filed, long⟩
  · have within := (runSession_of_done same nofun).trans (endRuns_of_named named p none)
    obtain ⟨results, records, others, chains, sessions, made, ledger⟩ := recorded.results
    obtain rfl : p.results = results := others.trans (List.nil_append _)
    let q : Progress := { p with h := ended request.session p.h }
    rcases report_or_tooLong request recorded rfl q rfl with
      ⟨out, told⟩ | ⟨⟨mishap, failed⟩, asJson, long⟩
    · obtain ⟨after, counted⟩ : ∃ after, writeMetrics request s q = .ok after :=
        exists_writeMetrics request s going'.alike writable
      have finished : run d args = (.finished out (q.results.all RunResult.completed),
          { d with folder := after, issued := q.h.issued }) := by
        rw [ran, within]
        dsimp only
        rw [told, counted]
      refine .inl ⟨q, within, ?_⟩
      rw [finished]
      exact {
        recorded := ⟨p.h, recorded, rfl⟩
        chains, sessions
        rows := ⟨records, made, congrArg Ledger.rows ledger⟩
        kept := going'.kept
        cleared := isLive_ended request.session p.h
        printed := ⟨out, rfl, prints_of_report told⟩
        status := status_finished out p.results
        metrics := counted }
    · refine .inr (.inr ⟨⟨mishap, ?_⟩, .inr asJson, long⟩)
      rw [ran, within]
      dsimp only
      rw [failed]
  · refine .inr (.inl ⟨?_, hangs⟩)
    rw [ran, runSession_of_stalled same]
  · refine .inr (.inr ⟨⟨mishap, ?_⟩, .inl filed, long⟩)
    rw [ran, (runSession_of_done same nofun).trans (endRuns_of_named named p _)]
    rfl

/-- A session without a name cannot be ended, and then all results are lost. -/
theorem Ready.crashed_of_nameless (ready : Ready d args request s h book folder)
    (nameless : request.session = "")
    (comes : (runEach "" (planned request h) { h, book, folder }).2 ≠ some .stalled) :
    (run d args).1 = .crashed (.mishap (.badValue "session scope requires a scope_id")) := by
  rw [ready.run_eq, nameless, runSession_of_done rfl comes]
  rfl

/-! ## Runs of the corpus -/

/-- A request to run a chain of the corpus. -/
def samlRun (session : String) : Request := { command := .run, chains := ["saml-xxe"], session }

/-- Where runs start with an empty ledger in memory. -/
def Progress.initial (h : Harness) : Progress :=
  { h, book := ⟨{ filed := false }, none⟩, folder := {} }

theorem exists_ready (args : List String) (session : String) (check : Harness → Bool)
    (asked : Request.ofArguments {} args = .ok (samlRun session))
    (passes : (Opening.run {} [] none [] 0).passes (fun s h =>
      decide (s.logging.level = "INFO") && s.ledger.isNone && check h) = true) :
    ∃ s h, Ready { folder := {} } args (samlRun session) s h ⟨{ filed := false }, none⟩ {} ∧
      check h = true := by
  obtain ⟨s, h, opened, all⟩ := Opening.exists_of_passes passes
  simp only [Bool.and_eq_true, decide_eq_true_eq, Option.isNone_iff_eq_none] at all
  obtain ⟨⟨level, unfiled⟩, checked⟩ := all
  refine ⟨s, h, ⟨asked, rfl, opened, ⟨20, ?_⟩, List.cons_ne_nil _ _, ?_⟩, checked⟩
  · rw [level]
    rfl
  · rw [unfiled]
    rfl

/-- A chain of the corpus is run and its result is told. -/
theorem run_reports_saml : ∃ s h p,
    runSession "cli-session" ["saml-xxe"] (.initial h) = (p, none) ∧
      Reported (samlRun "cli-session") s ["saml-xxe"] (.initial h) p
        (run { folder := {} } ["run", "--chain", "saml-xxe"]).1
        (run { folder := {} } ["run", "--chain", "saml-xxe"]).2.folder ∧
      (run { folder := {} } ["run", "--chain", "saml-xxe"]).1.status = 0 := by
  obtain ⟨s, h, ready, plain⟩ := exists_ready ["run", "--chain", "saml-xxe"] "cli-session"
    (fun h => (h.chains.find? "saml-xxe").any fun c => c.steps.all fun step => step.params.isEmpty)
    rfl (by decide +kernel)
  have defined : ∀ id ∈ selection (samlRun "cli-session") h, Defined h id := by
    intro id inside
    obtain rfl := List.mem_singleton.mp inside
    cases found : h.chains.find? "saml-xxe" with
    | none =>
        rw [found] at plain
        cases plain
    | some c =>
        rw [found] at plain
        refine ⟨c, found, fun step inside entry given => ?_⟩
        rw [List.isEmpty_iff.mp (List.all_eq_true.mp plain step inside)] at given
        cases given
  have fine : (run { folder := {} } ["run", "--chain", "saml-xxe"]).1.status = 0 := by
    decide +kernel
  rcases run_reports ready defined (by decide) nofun nofun nofun nofun with
    ⟨p, within, reported⟩ | ⟨stalled, _⟩ | ⟨⟨mishap, crashed⟩, _⟩
  · exact ⟨s, h, p, within, reported, fine⟩
  · rw [stalled] at fine
    cases fine
  · rw [crashed] at fine
    cases fine

/-- The run of a chain of the corpus is completed and recorded in a session without a name, and then
its result is lost. -/
theorem nameless_session_loses_results : ∃ s h,
    Ready { folder := {} } ["run", "--chain", "saml-xxe", "--session-id", ""] (samlRun "") s h
      ⟨{ filed := false }, none⟩ {} ∧
    (runEach "" ["saml-xxe"] (.initial h)).2 = none ∧
    (runEach "" ["saml-xxe"] (.initial h)).1.results.map RunResult.state = [.completed] ∧
    (run { folder := {} } ["run", "--chain", "saml-xxe", "--session-id", ""]).1 =
      .crashed (.mishap (.badValue "session scope requires a scope_id")) := by
  obtain ⟨s, h, ready, ran⟩ := exists_ready ["run", "--chain", "saml-xxe", "--session-id", ""] ""
    (fun h => (runEach "" ["saml-xxe"] (.initial h)).2.isNone &&
      decide ((runEach "" ["saml-xxe"] (.initial h)).1.results.map RunResult.state = [.completed]))
    rfl (by decide +kernel)
  rw [Bool.and_eq_true, Option.isNone_iff_eq_none, decide_eq_true_eq] at ran
  obtain ⟨done, completed⟩ := ran
  have comes : (runEach "" (planned (samlRun "") h) (.initial h)).2 ≠ some .stalled := by
    rw [show planned (samlRun "") h = ["saml-xxe"] from rfl, done]
    nofun
  exact ⟨s, h, ready, done, completed, ready.crashed_of_nameless rfl comes⟩

end TaintFlow.CommandLine
