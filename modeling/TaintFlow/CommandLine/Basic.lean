import TaintFlow.CommandLine.Request
import TaintFlow.CommandLine.Opening
import TaintFlow.Logging.Line
import TaintFlow.Json.Basic

/-!
# Commands

What the command line answers to an argument list, and what it leaves in the
working folder.  `run` executes the chosen chains, as often as asked and within
one session, records each run before the next one starts, and prints one result
for each.
-/

namespace TaintFlow

/-- Where a command works: its folder, its environment, and how many ids were made up so far. -/
structure Desk where
  folder : Folder
  env : Environment := []
  issued : Nat := 0

/-- What a command prints: lines of text, or records of runs. -/
inductive Printout where
  | text (content : String)
  | records (runs : List Json)

/-- How a command ends. -/
inductive Ending where
  | finished (out : Printout) (allCompleted : Bool)
  /-- The arguments are no request. -/
  | misused
  /-- A reason was told to the user. -/
  | refused (reason : String)
  /-- A failure that nothing took care of. -/
  | crashed (failure : Failure)
  /-- A capability never answers. -/
  | stalled

namespace Ending

/-- The status that a command exits with. -/
def status : Ending → Nat
  | finished _ true => 0
  | misused => 2
  | _ => 1

end Ending

namespace Printout

/-- Is the character one that stands between the start and the end of a control sequence? -/
def isParameter (c : Char) : Bool := c.isDigit || c == ';' || c == '?'

/-- A text without the sequences that control a screen, as it is written to anything else. -/
def withoutControls : Nat → List Char → List Char
  | 0, row => row
  | _ + 1, [] => []
  | fuel + 1, '\x1b' :: '[' :: rest =>
    match rest.dropWhile isParameter with
    | c :: after =>
      if c.isAlpha then withoutControls fuel after
      else '\x1b' :: '[' :: withoutControls fuel rest
    | [] => '\x1b' :: '[' :: rest
  | fuel + 1, c :: rest => c :: withoutControls fuel rest

/-- The text that is printed. -/
def screen : Printout → String
  | text content => String.ofList (withoutControls (content.length + 1) content.toList)
  | records runs => Json.print (.array runs) (.indented 2) ++ "\n"

end Printout

namespace CommandLine

/-! ## Texts -/

/-- A text filled up with blanks to a width. -/
def padded (width : Nat) (text : String) : String :=
  text ++ String.ofList (List.replicate (width - text.length) ' ')

/-- Lines, each with its end. -/
def lines (rows : List String) : String := String.join (rows.map (· ++ "\n"))

/-- The line of a chain. -/
def chainLine (c : Chain) : String :=
  padded 32 c.id ++ " " ++ padded 10 c.expected.text ++ " " ++ c.handle.name

/-- The line of a run: its state, its chain, and what reached its last step. -/
def resultLine (r : RunResult) : String :=
  let last := r.trace.getLast?
  let labels := ",".intercalate ((last.map fun t => t.labels.texts).getD [])
  let hops := (last.map fun t => t.hops).getD 0
  padded 10 r.state.text ++ " " ++ padded 32 r.chain ++ s!" hops={hops} labels=[{labels}]" ++
    match r.error with
    | some e => s!" error={e.kind.text}: {e.message}"
    | none => ""

/-- The line of a ledger's summary. -/
def summaryLine (l : Ledger) : String :=
  " ".intercalate (l.summary.map fun (state, count) => s!"{state}={count}")

/-! ## Ledgers -/

/-- A ledger of the command line: one in memory, or one at a path. -/
structure Book where
  ledger : Ledger
  path : Option Path := none

namespace Book

/-- The mishap of a ledger that cannot be opened. -/
def notOpened : Mishap := ⟨"OperationalError", "unable to open database file"⟩

/-- The mishap of a file that holds something else. -/
def notLedger : Mishap := ⟨"DatabaseError", "file is not a database"⟩

/-- The mishap of a ledger that is not there any more. -/
def notKept : Mishap := ⟨"OperationalError", "no such table: chain_runs"⟩

/-- The path of a ledger that no file keeps: it is gone as soon as it is left. -/
def passing : Path := .ofText ":memory:"

/-- Write a ledger at a path to its file. -/
def save (folder : Folder) (b : Book) : Except Mishap Folder :=
  match b.path with
  | none => .ok folder
  | some path =>
    if path = passing then if b.ledger.rows.isEmpty then .ok folder else .error notKept
    else match folder.write path (.ledger b.ledger.rows) with
    | .ok folder => .ok folder
    | .error _ => .error notOpened

/-- Open the ledger at a path, or one in memory.  A file of a single byte counts as empty. -/
def start (folder : Folder) : Option Path → Except Mishap (Book × Folder)
  | none => .ok (⟨{ filed := false }, none⟩, folder)
  | some path => do
    if Request.hasNull path.text then throw Request.nullByte
    let rows ← match if path = passing then none else folder.file? path with
      | none => pure []
      | some (.ledger rows) => pure rows
      | some (.text content) => if content.utf8ByteSize ≤ 1 then pure [] else throw notLedger
    let b : Book := ⟨{ filed := true, rows }, some path⟩
    return (b, ← b.save folder)

/-- Record a run. -/
def record (folder : Folder) (b : Book) (r : RunResult) : Except Mishap (Book × Folder) := do
  let b := { b with ledger := ← b.ledger.record r }
  return (b, ← b.save folder)

end Book

/-! ## Runs -/

/-- What runs leave behind: the harness, the ledger, the folder, and the results so far. -/
structure Progress where
  h : Harness
  book : Book
  folder : Folder
  results : List RunResult := []

/-- Why runs came to an end before the last one. -/
inductive Stop where
  | failed (failure : Failure)
  | stalled

/-- Run chains one after the other in a session, and record each run. -/
def runEach (session : String) : List String → Progress → Progress × Option Stop
  | [], p => (p, none)
  | id :: rest, p =>
    let (execution, h) := p.h.freshId 32
    match h.runChain id ⟨execution, some session⟩ with
    | .raised h failure => ({ p with h }, some (.failed failure))
    | .stalled h => ({ p with h }, some .stalled)
    | .returned h r =>
      match p.book.record p.folder r with
      | .error m => ({ p with h }, some (.failed (.mishap m)))
      | .ok (book, folder) =>
        runEach session rest { h, book, folder, results := p.results ++ [r] }

/-- End a session after the runs in it, also if one failed.  A failure to end the session hides any
other. -/
def endRuns (session : String) (p : Progress) (stop : Option Stop) : Progress × Option Stop :=
  match p.h.endSession session with
  | .ok (_, h) => ({ p with h }, stop)
  | .error m => (p, some (.failed (.mishap m)))

/-- Run chains in a session and end the session, unless one of the runs is never done. -/
def runSession (session : String) (ids : List String) (p : Progress) :
    Progress × Option Stop :=
  match runEach session ids p with
  | (p, some .stalled) => (p, some .stalled)
  | (p, stop) => endRuns session p stop

/-- What is printed after runs. -/
def report (request : Request) (p : Progress) : Except Mishap Printout :=
  if request.asJson then do
    let runs ← p.results.mapM RunResult.toRecord
    discard (Json.array runs).checkWritable
    return .records runs
  else
    let flagged := p.h.world.flagged.toList
    .ok (.text (lines (p.results.map resultLine ++ [summaryLine p.book.ledger] ++
      if flagged.isEmpty then [] else ["flagged operators: " ++ commaSeparated flagged])))

/-- Write the counters to the file that was asked for. -/
def writeMetrics (request : Request) (s : Settings) (p : Progress) : Except Mishap Folder :=
  match request.metricsOut with
  | none => .ok p.folder
  | some path =>
    if s.metricsEnabled then p.folder.write path (.text p.h.world.metrics.exposition)
    else .ok p.folder

/-- The ids to run: those that were asked for, or all those of a category. -/
def selection (request : Request) (h : Harness) : List String :=
  if request.chains.isEmpty then (h.listChains request.category).map Chain.id
  else request.chains

/-- The failure of a run as the end of the command: only the library's own errors are told. -/
def endOfFailure : Failure → Ending
  | .fault fault => .refused fault.message
  | other => .crashed other

/-- Run the chosen chains. -/
def runChains (d : Desk) (request : Request) (s : Settings) (h : Harness) : Ending × Desk :=
  match Threshold.read (.text s.logging.level) with
  | .error m => (.crashed (.mishap m), d)
  | .ok _ =>
    let ids := selection request h
    if ids.isEmpty then (.refused "no chains to run", d)
    else
      match Book.start d.folder (request.ledger.or s.ledger) with
      | .error m => (.crashed (.mishap m), d)
      | .ok (book, folder) =>
        let (p, stop) :=
          runSession request.session (List.replicate request.repeats ids).flatten
            { h, book, folder }
        let d := { d with folder := p.folder, issued := p.h.issued }
        match stop with
        | some (.failed failure) => (endOfFailure failure, d)
        | some .stalled => (.stalled, d)
        | none =>
          match report request p with
          | .error m => (.crashed (.mishap m), d)
          | .ok out =>
            match writeMetrics request s p with
            | .error m => (.crashed (.mishap m), d)
            | .ok folder =>
              (.finished out (p.results.all RunResult.completed), { d with folder })

/-- Answer a request. -/
def answer (d : Desk) (request : Request) : Ending × Desk :=
  match Opening.run d.folder d.env request.config request.catalogs d.issued with
  | .refused reason => (.refused reason, d)
  | .crashed failure => (.crashed failure, d)
  | .opened s h =>
    match request.command with
    | .run => runChains d request s h
    | .list => (.finished (.text (lines ((h.listChains request.category).map chainLine))) true, d)
    | .groundTruth =>
      match h.groundTruth request.category with
      | .error fault => (.crashed (.fault fault), d)
      | .ok truths =>
        let json : Json := .array (truths.map Harness.GroundTruth.toJson)
        (.finished (.text (json.print (.indented 2) ++ "\n")) true, d)

/-- Answer an argument list. -/
def run (d : Desk) (args : List String) : Ending × Desk :=
  match Request.ofArguments d.folder args with
  | .error .usage => (.misused, d)
  | .error .nullByte => (.crashed (.mishap Request.nullByte), d)
  | .ok request => answer d request

end CommandLine

end TaintFlow
