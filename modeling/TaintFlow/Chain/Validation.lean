import TaintFlow.World

/-!
# Validating chains

A chain is accepted if it starts with a value and ends at a sink, names only
what is registered, and never needs more active values than it has.  The
number of active values before each step follows from the steps alone.
-/

namespace TaintFlow.Chain

/-- Is every source registered? -/
def requireSources (network : Network) : List String → Except Flaw Unit
  | [] => .ok ()
  | id :: rest =>
    if network.sources.has id then requireSources network rest
    else .error (.unknown .source id)

/-- Is every sink registered? -/
def requireSinks (network : Network) : List String → Except Flaw Unit
  | [] => .ok ()
  | id :: rest =>
    if network.sinks.has id then requireSinks network rest else .error (.unknown .sink id)

/-- The registered operator of an id. -/
def requireOperator (network : Network) (id : String) : Except Flaw Operator :=
  match network.engine.operators.find? id with
  | some operator => .ok operator
  | none => .error (.unknown .operator id)

/-- The number of active values after a step, given the number before it. -/
def depthAfter (network : Network) (isLast : Bool) (depth : Nat) : Step → Except Flaw Nat
  | .source id => do
    requireSources network [id]
    return depth + 1
  | .load _ => return depth + 1
  | .merge sources loads operator _ => do
    requireSources network sources
    let registered ← requireOperator network operator
    let count := sources.length + loads.length
    if registered.accepts count then return depth + 1
    else throw (.mergeInputs operator count)
  | .relay operator _ => do
    let registered ← requireOperator network operator
    if depth < registered.needed then throw (.relayInputs operator registered.needed depth)
    match registered.arity with
    | none => return 1
    | some n => return depth - n + 1
  | .store _ => if depth < 1 then throw (.noValue .store) else return depth
  | .fanout sinks => do
    if depth < 1 then throw (.noValue .fanout)
    requireSinks network sinks
    return depth
  | .sink id => do
    if depth < 1 then throw (.noValue .sink)
    if !isLast then throw .sinkNotLast
    requireSinks network [id]
    return depth

/-- Walk through steps, the first of which stands at an index; the number of active values at
the end. -/
def walk (network : Network) (index depth : Nat) : List Step → Except (Nat × Flaw) Nat
  | [] => .ok depth
  | step :: rest =>
    match depthAfter network rest.isEmpty depth step with
    | .ok depth => walk network (index + 1) depth rest
    | .error flaw => .error (index, flaw)

/-- The first flaw of a chain and the step that has it. -/
def flaw? (network : Network) (c : Chain) : Option (Nat × Flaw) :=
  if !c.first.kind.produces then some (0, .startsWith c.first.kind)
  else if !c.last.kind.concludes then some (c.lastIndex, .endsWith c.last.kind)
  else
    match walk network 0 0 c.steps with
    | .ok _ => none
    | .error found => some found

/-- Refuse a chain that has a flaw. -/
def validate (network : Network) (c : Chain) : Except Fault Unit :=
  match flaw? network c with
  | none => .ok ()
  | some (index, flaw) => .error (.flawed c.id flaw (some index))

end TaintFlow.Chain
