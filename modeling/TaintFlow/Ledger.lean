import TaintFlow.Chain.Result
import TaintFlow.Json.Reader
import TaintFlow.Json.Basic
import TaintFlow.Text.Utf8

/-!
# Run ledgers

A ledger keeps the records of runs in the order in which they came in.  One
kind keeps them as they are; the other keeps their texts in a file, with the
members of every object in the order of their names, and takes each run only
once.
-/

namespace TaintFlow

/-- A record as a ledger keeps it: as it is, or as its text. -/
inductive LedgerEntry where
  | whole (record : Json)
  | written (text : String)

/-- A recorded run. -/
structure LedgerRow where
  runId : String
  chain : String
  state : String
  entry : LedgerEntry

/-- Recorded runs, oldest first. -/
structure Ledger where
  /-- The ledger is kept in a file. -/
  filed : Bool
  rows : List LedgerRow := []

namespace Json

mutual

/-- The value with the members of every object in the order of their names. -/
def sortMembers : Json → Json
  | .array items => .array (sortItems items)
  | .object members =>
    .object ((sortValues members).mergeSort fun a b => !decide (b.1 < a.1))
  | other => other

/-- The items of an array, each sorted inside. -/
def sortItems : List Json → List Json
  | [] => []
  | a :: rest => sortMembers a :: sortItems rest

/-- The members of an object, each sorted inside. -/
def sortValues : List (String × Json) → List (String × Json)
  | [] => []
  | (key, a) :: rest => (key, sortMembers a) :: sortValues rest

end

end Json

namespace LedgerEntry

/-- The mishap of a text that holds no record. -/
def notRecord : Mishap := ⟨"JSONDecodeError", "the row holds no record"⟩

/-- The record that is kept. -/
def record : LedgerEntry → Except Mishap Json
  | whole record => .ok record
  | written text =>
    match Json.ofString? text with
    | some record => .ok record
    | none => .error notRecord

end LedgerEntry

namespace Ledger

/-- The entry for a record.  In a file it is a text, which no number in the record may be too
long for. -/
def entry (l : Ledger) (record : Json) : Except Mishap LedgerEntry :=
  if l.filed then record.checkWritable.map fun record => .written record.sortMembers.print
  else .ok (.whole record)

/-- Check that texts can be written into the file of a ledger, if it is kept in one. -/
def checkEncodable (l : Ledger) (texts : List String) : Except Mishap Unit :=
  if l.filed then discard (texts.mapM fun text => Text.Utf8.encodeWhole text.toList) else .ok ()

/-- Record a run. -/
def record (l : Ledger) (r : RunResult) : Except Mishap Ledger := do
  let entry ← l.entry (← r.toRecord)
  l.checkEncodable (r.scopes.execution :: r.scopes.session.toList)
  if l.filed && l.rows.any (fun row => row.runId == r.runId) then
    throw ⟨"IntegrityError", "UNIQUE constraint failed: chain_runs.run_id"⟩
  return { l with rows := l.rows ++ [⟨r.runId, r.chain, r.state.text, entry⟩] }

/-- The records of all runs, or of those of one chain. -/
def list (l : Ledger) (chain : Option String := none) : Except Mishap (List Json) := do
  l.checkEncodable chain.toList
  let rows := match chain with
    | none => l.rows
    | some id => l.rows.filter fun row => row.chain == id
  rows.mapM fun row => row.entry.record

/-- The number of runs in each state, in the order of the names of the states. -/
def summary (l : Ledger) : List (String × Nat) :=
  let counts : Assoc String Nat :=
    l.rows.foldl (fun m row => Assoc.put row.state ((Assoc.find? row.state m).getD 0 + 1) m) []
  counts.mergeSort fun a b => !decide (b.1 < a.1)

end Ledger

/-! ## Files of ledgers -/

namespace LedgerRow

/-- A row as JSON. -/
def toJson (row : LedgerRow) : Json :=
  .object [("run_id", .text row.runId), ("chain_id", .text row.chain), ("state", .text row.state),
    ("record", match row.entry with
      | .whole record => record
      | .written text => .text text)]

/-- The row that JSON holds. -/
def ofJson? (json : Json) : Option LedgerRow := do
  let text (key : String) : Option String := (json.member? key).bind Json.text?
  return ⟨← text "run_id", ← text "chain_id", ← text "state", .written (← text "record")⟩

/-- The text of a file that holds rows: one to a line. -/
def fileText (rows : List LedgerRow) : String :=
  String.join (rows.map fun row => row.toJson.print ++ "\n")

/-- The rows that the text of a file holds. -/
def ofFileText? (text : String) : Option (List LedgerRow) :=
  ((text.toList.splitOn '\n').filter (!·.isEmpty)).mapM fun line =>
    (Json.read line).bind ofJson?

end LedgerRow

end TaintFlow
