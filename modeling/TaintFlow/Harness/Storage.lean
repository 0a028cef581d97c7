import TaintFlow.Harness.Basic
import TaintFlow.Value

/-!
# Direct use of the store

The store as a caller of the harness sees it: a scope and an id name a
partition, and what is not a scope or not an id is refused before anything
happens.
-/

namespace TaintFlow.Harness

/-- A stored value with everything that is known of it. -/
structure StoreEntry where
  partition : Partition
  key : String
  value : Value
  writtenAt : Int

/-- The partition that a scope and an id name. -/
def partitionOf (scope : Payload) (id : Option String) : Except Mishap Partition := do
  let scope ← named Scope "StoreScope" scope
  scope.partition id

/-- Write a value; unless a distance is given, the value's own is noted. -/
def put (h : Harness) (scope key : Payload) (value : Value) (id : Option String)
    (writtenAt : Payload) : Except Failure (StoreEntry × Harness) := do
  let p ← (partitionOf scope id).mapError .mishap
  let hop := match writtenAt with
    | .null => .int value.hops
    | given => given
  let (key, hop) ← (Checked.named "StoreEntry" <|
    Checked.both ((Payload.readText key).under (.field "key"))
      ((Payload.readWhole hop).under (.field "written_at_hop"))).mapError .invalid
  return (⟨p, key, value, hop⟩, { h with world := h.world.edit {} (.put p key value hop) })

/-- The live entry at a key. -/
def entry (h : Harness) (scope : Payload) (key : String) (id : Option String) :
    Except Failure StoreEntry := do
  let p ← (partitionOf scope id).mapError .mishap
  match h.world.store.slot? p key with
  | some (.live value writtenAt) => return ⟨p, key, value, writtenAt⟩
  | some .cleared => throw (.ofCause (.cleared p.scope p.id key))
  | none => throw (.ofCause (.notFound p.scope p.id key))

/-- Clear a key; was there a live value? -/
def clear (h : Harness) (scope : Payload) (key : String) (id : Option String) :
    Except Mishap (Bool × Harness) := do
  let p ← partitionOf scope id
  return (h.world.store.isLive p key, { h with world := h.world.edit {} (.clear p key) })

/-- Clear a partition; the number of values that were live. -/
def clearScope (h : Harness) (scope : Payload) (id : Option String) :
    Except Mishap (Nat × Harness) := do
  let p ← partitionOf scope id
  return (h.world.store.liveCount p, { h with world := h.world.edit {} (.clearAll p) })

/-- Forget a partition. -/
def release (h : Harness) (scope : Payload) (id : Option String) : Except Mishap Harness := do
  let p ← partitionOf scope id
  return { h with world := h.world.edit {} (.release p) }

/-- The keys of the live values in a partition. -/
def keys (h : Harness) (scope : Payload) (id : Option String) : Except Mishap (List String) := do
  return h.world.store.keys (← partitionOf scope id)

/-- The partitions of a scope. -/
def partitions (h : Harness) (scope : Payload) : Except Mishap (List String) := do
  return h.world.store.partitionIds (← named Scope "StoreScope" scope)

end TaintFlow.Harness
