import TaintFlow.Relay.Operator
import TaintFlow.SinkCategory

/-!
# Chains

A chain says how data flows: steps that take values from sources and from the
store, change them, write them to the store and hand them to sinks.  What the
chain is expected to reach is a category of sinks.
-/

namespace TaintFlow

/-- A stored value, by scope and key. -/
structure StoreRef where
  scope : Scope
  key : String
  deriving DecidableEq

/-- A step of a chain. -/
inductive Step where
  | source (id : String)
  | relay (operator : String) (params : Params)
  | store (target : StoreRef)
  | load (origin : StoreRef)
  | fanout (sinks : List String)
  | merge (sources : List String) (loads : List StoreRef) (operator : String) (params : Params)
  | sink (id : String)
  deriving DecidableEq

namespace Step

/-- The kind of a step. -/
def kind : Step → StepKind
  | source _ => .source
  | relay .. => .relay
  | store _ => .store
  | load _ => .load
  | fanout _ => .fanout
  | merge .. => .merge
  | sink _ => .sink

/-- The sources that a step asks, in order. -/
def sources : Step → List String
  | source id => [id]
  | merge sources .. => sources
  | _ => []

/-- The sinks that a step hands its value to, in order. -/
def sinks : Step → List String
  | sink id => [id]
  | fanout sinks => sinks
  | _ => []

/-- The operator that a step applies. -/
def operator? : Step → Option String
  | relay operator _ => some operator
  | merge _ _ operator _ => some operator
  | _ => none

/-- The stored values that a step names. -/
def storeRefs : Step → List StoreRef
  | store target => [target]
  | load origin => [origin]
  | merge _ loads .. => loads
  | _ => []

end Step

/-- A declared chain; it has at least one step. -/
structure Chain where
  id : String
  expected : SinkCategory
  steps : List Step
  steps_ne : steps ≠ []
  name : String := ""
  description : String := ""
  tags : List String := []
  deriving DecidableEq

/-- A reference to a defined chain. -/
structure ChainHandle where
  id : String
  expected : SinkCategory
  name : String
  tags : List String
  deriving DecidableEq

namespace Chain

/-- The reference to a chain; a chain without a name goes by its id. -/
def handle (c : Chain) : ChainHandle :=
  ⟨c.id, c.expected, if c.name = "" then c.id else c.name, c.tags⟩

/-- The sources that a chain asks, in order. -/
def sources (c : Chain) : List String := c.steps.flatMap Step.sources

/-- The sinks that a chain hands values to, in order. -/
def sinks (c : Chain) : List String := c.steps.flatMap Step.sinks

/-- The operators that a chain applies, in order. -/
def operators (c : Chain) : List String := c.steps.filterMap Step.operator?

/-- Does the chain touch values that live as long as a session? -/
def usesSession (c : Chain) : Bool :=
  c.steps.any fun step => step.storeRefs.any fun ref => ref.scope = .session

/-- The first step. -/
def first (c : Chain) : Step := c.steps.head c.steps_ne

/-- The last step. -/
def last (c : Chain) : Step := c.steps.getLast c.steps_ne

/-- The index of the last step. -/
def lastIndex (c : Chain) : Nat := c.steps.length - 1

end Chain

end TaintFlow
