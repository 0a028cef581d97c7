import TaintFlow.Mishap
import TaintFlow.Json.Basic

/-!
# Correlation

What a record belongs to: a chain, a run, an execution, a step, and a trace.
Scopes are opened and closed in the manner of brackets.  An open scope gives
some of the ids, and those that it does not give are those of the scope around
it.
-/

namespace TaintFlow

/-- The ids that records bear. -/
inductive CorrelationField where
  | chain | run | execution | step
  deriving DecidableEq

namespace CorrelationField

/-- The ids in the order in which records bear them. -/
def all : List CorrelationField := [chain, run, execution, step]

/-- The name of an id in records. -/
def text : CorrelationField → String
  | chain => "chain_id"
  | run => "run_id"
  | execution => "execution_id"
  | step => "step_index"

/-- The id of a name. -/
def ofText? (name : String) : Option CorrelationField := all.find? (·.text == name)

end CorrelationField

/-- An id: a text or a number. -/
inductive CorrelationId where
  | text (s : String)
  | number (n : Int)
  deriving DecidableEq

namespace CorrelationId

/-- An id in a line of text. -/
def plain : CorrelationId → String
  | text s => s
  | number n => toString n

/-- An id in JSON. -/
def toJson : CorrelationId → Json
  | text s => .text s
  | number n => .int n

/-- Can the id be written?  A number may have too many digits. -/
def isWritable : CorrelationId → Bool
  | text _ => true
  | number n => Number.isWritable n

end CorrelationId

/-- The ids that hold at a place. -/
abbrev Correlation := CorrelationField → Option CorrelationId

/-- The ids that a scope gives, under any names; an id may be given as nothing. -/
abbrev GivenIds := List (String × Option CorrelationId)

namespace Correlation

/-- No ids. -/
def none : Correlation := fun _ => Option.none

/-- The id that a scope gives for a field; the last one counts. -/
def given (ids : GivenIds) (field : CorrelationField) : Option CorrelationId :=
  ids.foldl (fun found (name, id) =>
    if CorrelationField.ofText? name = some field then id.or found else found) Option.none

/-- Can all ids be written? -/
def isWritable (ids : Correlation) : Bool :=
  CorrelationField.all.all fun field => (ids field).all CorrelationId.isWritable

/-- The ids inside a scope. -/
def inside (outer : Correlation) (ids : GivenIds) : Correlation :=
  fun field => (given ids field).or (outer field)

/-- The names that are those of no id, in order. -/
def unknownNames (ids : GivenIds) : List String :=
  ((ids.map Prod.fst).filter fun name => (CorrelationField.ofText? name).isNone).mergeSort
    fun a b => !decide (b < a)

end Correlation

/-- The ids and the trace that hold now, and those to come back to at each open scope. -/
structure Scopes where
  now : Correlation := .none
  /-- The id of the trace; zero is none. -/
  trace : Nat := 0
  outer : List (Correlation × Nat) := []

namespace Scopes

/-- Open a scope that gives ids. -/
def enter (s : Scopes) (ids : GivenIds) : Except Mishap Scopes :=
  match Correlation.unknownNames ids with
  | [] => .ok ⟨s.now.inside ids, s.trace, (s.now, s.trace) :: s.outer⟩
  | unknown =>
    .error (.badType ("unknown correlation field(s): " ++ ", ".intercalate unknown))

/-- Open a span of a trace. -/
def span (s : Scopes) (trace : Nat) : Scopes := ⟨s.now, trace, (s.now, s.trace) :: s.outer⟩

/-- Close the innermost scope or span; without one nothing happens. -/
def exit (s : Scopes) : Scopes :=
  match s.outer with
  | [] => s
  | (now, trace) :: outer => ⟨now, trace, outer⟩

end Scopes

end TaintFlow
