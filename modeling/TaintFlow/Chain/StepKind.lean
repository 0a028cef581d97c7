import TaintFlow.Data.Enumeration

/-!
# Kinds of steps

The seven kinds of steps that a chain is made of.
-/

namespace TaintFlow

/-- The kind of a step. -/
inductive StepKind where
  | source | relay | store | load | fanout | merge | sink
  deriving DecidableEq

namespace StepKind

/-- The name of a kind. -/
def text : StepKind → String
  | .source => "source"
  | .relay => "relay"
  | .store => "store"
  | .load => "load"
  | .fanout => "fanout"
  | .merge => "merge"
  | .sink => "sink"

instance : Enumeration StepKind where
  all := [.source, .relay, .store, .load, .fanout, .merge, .sink]
  name := text
  mem_all a := by cases a <;> decide
  name_injective a b := by cases a <;> cases b <;> simp [text]

/-- Does a step of this kind put a value on an empty stack? -/
def produces : StepKind → Bool
  | .source | .load | .merge => true
  | _ => false

/-- May a chain end with a step of this kind? -/
def concludes : StepKind → Bool
  | .sink | .fanout => true
  | _ => false

end StepKind

end TaintFlow
