import TaintFlow.Harness.Basic

/-!
# Attempts to run a chain

An attempt is refused before anything has happened, or it is a run of the chain
from start to end.  The main statement is `runChain_eq`, for a harness in whose
loop there is no other run.
-/

namespace TaintFlow.Harness

variable {h : Harness}

/-- The harness after a run of a chain, and what its caller gets. -/
def concluded (h : Harness) : Run.End → Attempt
  | .returned world r => .returned { h with world } r.result
  | .raised world _ mishap => .raised { h with world } (.mishap mishap)
  | .stalled world _ => .stalled { h with world }

/-- The harness after it has made up one more id. -/
def issuing (h : Harness) : Harness := { h with issued := h.issued + 1 }

theorem execute_of_isIdle (idle : h.loop.isIdle = true) (r : Run) :
    (h.execute r).1 = h.concluded (r.run h.network h.world) := by
  unfold execute EventLoop.run
  rw [if_pos idle]
  cases r.run h.network h.world with
  | returned w r => rfl
  | raised w r mishap => rfl
  | stalled w r => rfl

/-- A run is refused for its chain or for its session, or it gets an id. -/
theorem newRun_eq (id : String) (scopes : RunScopes) (context : Payload)
    (timeout : Option Timeout) :
    h.newRun id scopes context timeout =
      match h.getChain id with
      | .error fault => .error (.fault fault)
      | .ok c =>
        match requireSession c scopes with
        | .error mishap => .error (.mishap mishap)
        | .ok () => .ok (Run.fresh c scopes (h.freshId 32).1 context timeout, h.issuing) := by
  unfold newRun
  cases h.getChain id with
  | error fault => rfl
  | ok c =>
      dsimp only
      show (requireSession c scopes).mapError Failure.mishap >>= _ = _
      cases requireSession c scopes with
      | error mishap => rfl
      | ok _ => rfl

/-- An attempt is refused, for the chain or for its session, or the chain is run. -/
theorem runChain_eq (idle : h.loop.isIdle = true) (id : String) (scopes : RunScopes)
    (context : Payload) (timeout : Option Timeout) :
    h.runChain id scopes context timeout =
      match h.getChain id with
      | .error fault => .raised h (.fault fault)
      | .ok c =>
        match requireSession c scopes with
        | .error mishap => .raised h (.mishap mishap)
        | .ok () =>
          h.issuing.concluded
            ((Run.fresh c scopes (h.freshId 32).1 context timeout).run h.network h.world) := by
  unfold runChain
  rw [newRun_eq]
  cases h.getChain id with
  | error fault => rfl
  | ok c =>
      dsimp only
      cases requireSession c scopes with
      | error mishap => rfl
      | ok _ => exact execute_of_isIdle (h := h.issuing) idle _

theorem getChain_eq_ok {id : String} {c : Chain} :
    h.getChain id = .ok c ↔ h.chains.find? id = some c := by
  unfold getChain
  cases h.chains.find? id with
  | none => exact ⟨nofun, nofun⟩
  | some found =>
      exact ⟨fun same => congrArg some (Except.ok.inj same),
        fun same => congrArg Except.ok (Option.some.inj same)⟩

theorem requireSession_eq_ok {c : Chain} {scopes : RunScopes} :
    requireSession c scopes = .ok () ↔ (c.usesSession = true → scopes.session ≠ none) := by
  unfold requireSession
  split
  · rename_i both
    exact ⟨nofun, fun within => absurd both.1 (within both.2)⟩
  · rename_i fine
    exact ⟨fun _ uses none => fine ⟨none, uses⟩, fun _ => rfl⟩

/-- A chain that is defined and has a session if it uses one is run. -/
theorem runChain_of_find? (idle : h.loop.isIdle = true) {id : String} {c : Chain}
    (found : h.chains.find? id = some c) {scopes : RunScopes}
    (within : c.usesSession = true → scopes.session ≠ none) (context : Payload)
    (timeout : Option Timeout) :
    h.runChain id scopes context timeout =
      h.issuing.concluded
        ((Run.fresh c scopes (h.freshId 32).1 context timeout).run h.network h.world) := by
  rw [runChain_eq idle, getChain_eq_ok.mpr found]
  dsimp only
  rw [requireSession_eq_ok.mpr within]

end TaintFlow.Harness
