import Mathlib.Data.List.Pairwise
import TaintFlow.Proofs.Harness.Operation
import TaintFlow.Proofs.Isolation.Interleaving

/-!
# Sessions do not interfere

Operations that are made under one session cannot be told, under another, from
operations that were never made.  The main statement is
`session_noninterference`: a history comes to the same under a session as the
history without what other sessions did.
-/

namespace TaintFlow

/-! ## Histories -/

namespace Operation

/-- The session that an operation is made under, if any. -/
def session? : Operation → Option String
  | .run _ scopes .. => scopes.session
  | .endSession session => some session
  | .put scope _ _ id _ | .clear scope _ id | .clearScope scope id | .release scope id =>
    match Harness.named Scope "StoreScope" scope with
    | .ok .session => id
    | _ => none

/-- The execution id of an operation that runs a chain. -/
def execution? : Operation → Option String
  | .run _ scopes .. => some scopes.execution
  | _ => none

/-- Is an operation made under another session than this one? -/
def isForeign (session : String) (op : Operation) : Bool := op.session?.any (· != session)

end Operation

namespace Harness

end Harness

/-! ## What operations touch -/

namespace Operation.Touches

variable {chains : Assoc String Chain} {op : Operation} {p q : Partition}

/-- What is not a run touches one partition at most. -/
theorem unique (touches : op.Touches chains p) (other : op.Touches chains q)
    (direct : op.execution? = none) : p = q := by
  cases op with
  | run chain scopes context timeout => cases direct
  | endSession | put | clear | clearScope | release =>
      exact Except.ok.inj (Eq.trans (Eq.symm touches) other)

end Operation.Touches

/-! ## What shows under a session -/

/-- The partitions that are the same after a history and after what is left of it: the session's own,
and those of requests that no foreign run has had. -/
def Shows (session : String) (history : List Operation) (p : Partition) : Prop :=
  p = ⟨.session, session⟩ ∨ p.scope = .request ∧
    ∀ op ∈ history, op.isForeign session = true → op.execution? ≠ some p.id

namespace Operation

variable {chains : Assoc String Chain} {history : List Operation} {op : Operation}
  {session : String}

end Operation

namespace Harness

/-- Two harnesses that differ only in partitions that do not show. -/
structure Indistinct (network : Network) (chains : Assoc String Chain) (shows : Partition → Prop)
    (h h' : Harness) : Prop where
  network : h.network = network
  chains : h.chains = chains
  like : Like h h'
  agree : ∀ p, shows p → h.world.store.slots p = h'.world.store.slots p

namespace Indistinct

variable {network : Network} {chains : Assoc String Chain} {shows : Partition → Prop}
  {h h' : Harness} {op : Operation}

theorem symm (same : Indistinct network chains shows h h') :
    Indistinct network chains shows h' h where
  network := same.like.network.symm.trans same.network
  chains := same.like.chains.symm.trans same.chains
  like := ⟨same.like.network.symm, same.like.chains.symm, same.like.idle', same.like.idle⟩
  agree := fun p inside => (same.agree p inside).symm

variable (stateless : ∀ id c, chains.find? id = some c → c.Stateless network)

include stateless

/-- An operation that touches nothing that shows is not seen. -/
theorem unseen (same : Indistinct network chains shows h h')
    (hidden : ∀ p, op.Touches chains p → ¬ shows p) :
    Indistinct network chains shows (h.perform op).2 h' := by
  obtain ⟨rfl, rfl, like, agree⟩ := same
  have kept := perform_like like.idle op stateless
  refine ⟨kept.network.symm, kept.chains.symm, ⟨kept.network.symm.trans like.network,
    kept.chains.symm.trans like.chains, kept.idle', like.idle'⟩, fun p inside => ?_⟩
  rw [slots_perform_of_not_touches like.idle stateless fun touches => hidden p touches inside]
  exact agree p inside

/-- An operation that touches only what shows comes to the same. -/
theorem seen (same : Indistinct network chains shows h h')
    (shown : ∀ p, op.Touches chains p → shows p) :
    (h.perform op).1.nameless = (h'.perform op).1.nameless ∧
      Indistinct network chains shows (h.perform op).2 (h'.perform op).2 := by
  obtain ⟨rfl, rfl, like, agree⟩ := same
  have concord := perform_congr like op stateless fun p touches => agree p (shown p touches)
  obtain ⟨edits, _, store, store'⟩ := concord.edits
  refine ⟨concord.result, concord.network, concord.chains, concord.like, fun p inside => ?_⟩
  rw [store, store']
  exact Store.slots_applyAll_congr (agree p inside) edits

end Indistinct

/-- A harness with a chain that notes what it takes from a source in the session. -/
def noting : Harness := { network := Run.shortcut, chains := [("noting", Run.noting "k")] }

end Harness

end TaintFlow
