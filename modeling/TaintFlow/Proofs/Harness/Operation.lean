import TaintFlow.Harness.Storage
import TaintFlow.Proofs.Harness.Attempt
import TaintFlow.Proofs.Isolation.Alone
import TaintFlow.Proofs.Run.Recasting

/-!
# What operations on a harness read and change

An operation runs a chain or uses the store.  What it comes to depends on the
partitions that it touches and on no others, and it changes no others.  The main
statement is `perform_congr`: two harnesses that agree on what an operation
touches reply to it in the same way and edit their stores in the same way.
-/

namespace TaintFlow

/-- An operation on the runs and the store of a harness. -/
inductive Operation where
  | run (chain : String) (scopes : RunScopes) (context : Payload) (timeout : Option Timeout)
  | endSession (session : String)
  | put (scope key : Payload) (value : Value) (id : Option String) (writtenAt : Payload)
  | clear (scope : Payload) (key : String) (id : Option String)
  | clearScope (scope : Payload) (id : Option String)
  | release (scope : Payload) (id : Option String)

/-- What an operation comes to. -/
inductive Operation.Result where
  | ran (result : RunResult)
  | stored (entry : Harness.StoreEntry)
  | cleared (live : Bool)
  | dropped (count : Nat)
  | released
  | refused (failure : Failure)
  /-- The operation waits for something that never comes. -/
  | stalled

/-- A result without the id that a run was recorded under. -/
def Operation.Result.nameless : Operation.Result → Operation.Result
  | .ran result => .ran (result.named "")
  | other => other

/-- The partitions that an operation may read or change, where these chains are defined. -/
def Operation.Touches (chains : Assoc String Chain) (op : Operation) (p : Partition) : Prop :=
  match op with
  | .run chain scopes .. =>
    p = ⟨.request, scopes.execution⟩ ∨
      ∃ c, chains.find? chain = some c ∧ ∃ key, c.Reads scopes p key ∨ c.Writes scopes p key
  | .endSession session => Scope.session.partition (some session) = .ok p
  | .put scope _ _ id _ | .clear scope _ id | .clearScope scope id | .release scope id =>
    Harness.partitionOf scope id = .ok p

namespace Harness

/-- The result of an operation that returns or is refused, and the harness after it. -/
def settle {α : Type} (h : Harness) (result : α → Operation.Result) :
    Except Failure (α × Harness) → Operation.Result × Harness
  | .ok (a, after) => (result a, after)
  | .error failure => (.refused failure, h)

/-- The result of an attempt to run a chain, and the harness after it. -/
def attempted : Attempt → Operation.Result × Harness
  | .returned after result => (.ran result, after)
  | .raised after failure => (.refused failure, after)
  | .stalled after => (.stalled, after)

/-- Carry out an operation. -/
def perform (h : Harness) : Operation → Operation.Result × Harness
  | .run chain scopes context timeout => attempted (h.runChain chain scopes context timeout)
  | .endSession session => h.settle .dropped ((h.endSession session).mapError .mishap)
  | .put scope key value id writtenAt => h.settle .stored (h.put scope key value id writtenAt)
  | .clear scope key id => h.settle .cleared ((h.clear scope key id).mapError .mishap)
  | .clearScope scope id => h.settle .dropped ((h.clearScope scope id).mapError .mishap)
  | .release scope id =>
    h.settle (fun _ => .released)
      (((h.release scope id).map fun after => ((), after)).mapError .mishap)

/-- Two harnesses with the same components and chains, and no run in the loop of either. -/
structure Like (h h' : Harness) : Prop where
  network : h.network = h'.network
  chains : h.chains = h'.chains
  idle : h.loop.isIdle = true
  idle' : h'.loop.isIdle = true

/-- What becomes of an operation in two harnesses: the results are the same but for the ids of
runs, and so are the edits of the stores, all in partitions that the operation touches. -/
structure Concord (op : Operation) (h h' : Harness) : Prop where
  result : (h.perform op).1.nameless = (h'.perform op).1.nameless
  like : Like (h.perform op).2 (h'.perform op).2
  network : (h.perform op).2.network = h.network
  chains : (h.perform op).2.chains = h.chains
  edits : ∃ edits : List Store.Edit, (∀ e ∈ edits, op.Touches h.chains e.partition) ∧
    (h.perform op).2.world.store = h.world.store.applyAll edits ∧
    (h'.perform op).2.world.store = h'.world.store.applyAll edits

variable {h h' : Harness}

theorem Like.refl (idle : h.loop.isIdle = true) : Like h h := ⟨rfl, rfl, idle, idle⟩

namespace Concord

variable {op : Operation} {result : Operation.Result} {w w' : World}

/-- An operation that both harnesses refuse. -/
theorem of_refused (like : Like h h') {failure : Failure}
    (one : h.perform op = (.refused failure, h))
    (other : h'.perform op = (.refused failure, h')) : Concord op h h' where
  result := by rw [one, other]
  like := by
    rw [one, other]
    exact like
  network := by rw [one]
  chains := by rw [one]
  edits := ⟨[], List.forall_mem_nil _, by rw [one]; rfl, by rw [other]; rfl⟩

/-- An operation that makes one edit. -/
theorem of_edit (like : Like h h') {e : Store.Edit} (touches : op.Touches h.chains e.partition)
    (one : h.perform op = (result, { h with world := w }))
    (other : h'.perform op = (result, { h' with world := w' }))
    (store : w.store = h.world.store.apply e) (store' : w'.store = h'.world.store.apply e) :
    Concord op h h' where
  result := by rw [one, other]
  like := by
    rw [one, other]
    exact ⟨like.network, like.chains, like.idle, like.idle'⟩
  network := by rw [one]
  chains := by rw [one]
  edits := by
    refine ⟨[e], fun e' inside => ?_, ?_, ?_⟩
    · rw [List.mem_singleton.mp inside]
      exact touches
    · rw [one]
      exact store
    · rw [other]
      exact store'

/-- An operation that is refused for its partition, or makes one edit there. -/
theorem of_placed (like : Like h h') (place : Except Mishap Partition)
    (result : Store → Partition → Operation.Result) (after : World → Partition → World)
    (e : Partition → Store.Edit)
    (performs : ∀ h : Harness, h.perform op =
      match place with
      | .error mishap => (.refused (.mishap mishap), h)
      | .ok p => (result h.world.store p, { h with world := after h.world p }))
    (touches : ∀ p, place = .ok p → op.Touches h.chains p) (there : ∀ p, (e p).partition = p)
    (store : ∀ w p, (after w p).store = w.store.apply (e p))
    (same : ∀ p, place = .ok p → result h.world.store p = result h'.world.store p) :
    Concord op h h' := by
  cases place with
  | error mishap => exact .of_refused like (performs h) (performs h')
  | ok p =>
      have other := performs h'
      dsimp only at other
      rw [← same p rfl] at other
      refine .of_edit like (e := e p) ?_ (performs h) other (store _ _) (store _ _)
      rw [there p]
      exact touches p rfl

end Concord

variable {s s' : Store} {p : Partition}

theorem liveCount_congr (same : s.slots p = s'.slots p) : s.liveCount p = s'.liveCount p := by
  unfold Store.liveCount
  rw [same]

theorem slot?_congr (same : s.slots p = s'.slots p) (key : String) :
    s.slot? p key = s'.slot? p key := by
  unfold Store.slot?
  rw [same]

theorem isLive_congr (same : s.slots p = s'.slots p) (key : String) :
    s.isLive p key = s'.isLive p key := by
  unfold Store.isLive
  rw [slot?_congr same]

theorem concord_endSession (like : Like h h') {session : String}
    (agree : ∀ p, (Operation.endSession session).Touches h.chains p →
      h.world.store.slots p = h'.world.store.slots p) :
    Concord (.endSession session) h h' := by
  refine .of_placed like (Scope.session.partition (some session))
    (fun s p => .dropped (s.liveCount p))
    (fun w p => (w.edit {} (.clearAll p)).say {} (.sessionEnded session (w.store.liveCount p)))
    .clearAll (fun h => ?_) (fun _ place => place) (fun _ => rfl)
    (fun w p => World.edit_store w {} (.clearAll p))
    (fun p place => congrArg _ (liveCount_congr (agree p place)))
  show h.settle .dropped ((h.endSession session).mapError .mishap) = _
  unfold endSession
  cases Scope.session.partition (some session) with
  | error mishap => rfl
  | ok p => rfl

theorem concord_clear (like : Like h h') {scope : Payload} {key : String} {id : Option String}
    (agree : ∀ p, (Operation.clear scope key id).Touches h.chains p →
      h.world.store.slots p = h'.world.store.slots p) :
    Concord (.clear scope key id) h h' := by
  refine .of_placed like (partitionOf scope id) (fun s p => .cleared (s.isLive p key))
    (fun w p => w.edit {} (.clear p key)) (.clear · key) (fun h => ?_)
    (fun _ place => place) (fun _ => rfl) (fun _ _ => World.edit_store _ _ _)
    (fun p place => congrArg _ (isLive_congr (agree p place) key))
  show h.settle .cleared ((h.clear scope key id).mapError .mishap) = _
  unfold clear
  cases partitionOf scope id with
  | error mishap => rfl
  | ok p => rfl

theorem concord_clearScope (like : Like h h') {scope : Payload} {id : Option String}
    (agree : ∀ p, (Operation.clearScope scope id).Touches h.chains p →
      h.world.store.slots p = h'.world.store.slots p) :
    Concord (.clearScope scope id) h h' := by
  refine .of_placed like (partitionOf scope id) (fun s p => .dropped (s.liveCount p))
    (fun w p => w.edit {} (.clearAll p)) .clearAll (fun h => ?_)
    (fun _ place => place) (fun _ => rfl) (fun _ _ => World.edit_store _ _ _)
    (fun p place => congrArg _ (liveCount_congr (agree p place)))
  show h.settle .dropped ((h.clearScope scope id).mapError .mishap) = _
  unfold clearScope
  cases partitionOf scope id with
  | error mishap => rfl
  | ok p => rfl

theorem concord_release (like : Like h h') {scope : Payload} {id : Option String} :
    Concord (.release scope id) h h' := by
  refine .of_placed like (partitionOf scope id) (fun _ _ => .released)
    (fun w p => w.edit {} (.release p)) .release (fun h => ?_)
    (fun _ place => place) (fun _ => rfl) (fun _ _ => World.edit_store _ _ _)
    (fun _ _ => rfl)
  show h.settle _ (((h.release scope id).map fun after => ((), after)).mapError .mishap) = _
  unfold release
  cases partitionOf scope id with
  | error mishap => rfl
  | ok p => rfl

theorem concord_put (like : Like h h') {scope key : Payload} {value : Value} {id : Option String}
    {writtenAt : Payload} : Concord (.put scope key value id writtenAt) h h' := by
  -- What is written is read before the store is touched, and not from the store.
  obtain ⟨read, performs⟩ : ∃ read : Except Failure (String × Int), ∀ h : Harness,
      h.perform (.put scope key value id writtenAt) = h.settle .stored (do
        let p ← (partitionOf scope id).mapError .mishap
        let given ← read
        return (⟨p, given.1, value, given.2⟩, { h with
          world := h.world.edit {} (.put p given.1 value given.2) })) := ⟨_, fun _ => rfl⟩
  cases place : partitionOf scope id with
  | error mishap =>
      have refused (h : Harness) : h.perform (.put scope key value id writtenAt) =
          (.refused (.mishap mishap), h) := by
        rw [performs, place]
        rfl
      exact .of_refused like (refused h) (refused h')
  | ok p =>
      cases read with
      | error failure =>
          have refused (h : Harness) : h.perform (.put scope key value id writtenAt) =
              (.refused failure, h) := by
            rw [performs, place]
            rfl
          exact .of_refused like (refused h) (refused h')
      | ok pair =>
          have performed (h : Harness) : h.perform (.put scope key value id writtenAt) =
              (.stored ⟨p, pair.1, value, pair.2⟩, { h with
                world := h.world.edit {} (.put p pair.1 value pair.2) }) := by
            rw [performs, place]
            rfl
          exact .of_edit like (e := .put p pair.1 value pair.2) place (performed h) (performed h')
            (World.edit_store _ _ _) (World.edit_store _ _ _)

/-- Attempts that end alike, but for the id that the run is recorded under. -/
theorem Concord.of_alike (like : Like h h') {chain : String} {scopes : RunScopes}
    {context : Payload} {timeout : Option Timeout} {ending ending' : Run.End} {name : String}
    {edits : List Store.Edit}
    (one : h.runChain chain scopes context timeout = h.issuing.concluded ending)
    (other : h'.runChain chain scopes context timeout = h'.issuing.concluded (ending'.named name))
    (alike : Run.Alike edits h.world.store h'.world.store ending ending')
    (confined : ∀ e ∈ edits,
      (Operation.run chain scopes context timeout).Touches h.chains e.partition) :
    Concord (.run chain scopes context timeout) h h' := by
  have here : h.perform (.run chain scopes context timeout) = _ := congrArg attempted one
  have there : h'.perform (.run chain scopes context timeout) = _ := congrArg attempted other
  cases alike with
  | returned store store' | raised store store' | stalled store store' =>
      refine ⟨?_, ?_, ?_, ?_, edits, confined, ?_, ?_⟩
      · rw [here, there]
        rfl
      · rw [here, there]
        exact ⟨like.network, like.chains, like.idle, like.idle'⟩
      · rw [here]
        rfl
      · rw [here]
        rfl
      · rw [here]
        exact store
      · rw [there]
        exact store'

theorem touches_of_confines {chains : Assoc String Chain} {chain : String} {c : Chain}
    {scopes : RunScopes} {context : Payload} {timeout : Option Timeout}
    (found : chains.find? chain = some c) {e : Store.Edit} (confined : c.Confines scopes e) :
    (Operation.run chain scopes context timeout).Touches chains e.partition := by
  cases confined with
  | put writes value writtenAt => exact .inr ⟨c, found, _, .inr writes⟩
  | release => exact .inl rfl

theorem concord_run (like : Like h h') {chain : String} {scopes : RunScopes} {context : Payload}
    {timeout : Option Timeout}
    (stateless : ∀ c, h.chains.find? chain = some c → c.Stateless h.network)
    (agree : ∀ p, (Operation.run chain scopes context timeout).Touches h.chains p →
      h.world.store.slots p = h'.world.store.slots p) :
    Concord (.run chain scopes context timeout) h h' := by
  have same : h'.getChain chain = h.getChain chain := by
    unfold getChain
    rw [like.chains]
  have one := runChain_eq like.idle chain scopes context timeout
  have other := runChain_eq like.idle' chain scopes context timeout
  rw [same] at other
  cases found : h.getChain chain with
  | error fault =>
      rw [found] at one other
      exact .of_refused like (congrArg attempted one) (congrArg attempted other)
  | ok c =>
      rw [found] at one other
      dsimp only at one other
      cases admitted : requireSession c scopes with
      | error mishap =>
          rw [admitted] at one other
          exact .of_refused like (congrArg attempted one) (congrArg attempted other)
      | ok _ =>
          rw [admitted] at one other
          have here := getChain_eq_ok.mp found
          let r := Run.fresh c scopes (h.freshId 32).1 context timeout
          let touched : Partition → String → Prop := fun p _ =>
            (Operation.run chain scopes context timeout).Touches h.chains p
          have calls : r.chain.Stateless h.network := stateless c here
          have sees : Run.Sees r.chain r.scopes touched := fun p key reads =>
            .inr ⟨c, here, key, .inl reads⟩
          have shown : Store.Agree touched h.world.store h'.world.store := fun p key inside =>
            slot?_congr (agree p inside) key
          obtain ⟨edits, confined, alike⟩ := Run.run_congr calls sees shown
          rw [← like.network] at other
          have renamed := congrArg h'.issuing.concluded
            (Run.run_named h.network h'.world r (h'.freshId 32).1)
          exact .of_alike like one (other.trans renamed) alike fun e inside =>
            touches_of_confines here (confined e inside)

/-- What calls nothing that has a state comes to the same in two harnesses that agree on what it
touches, and edits their stores in the same way. -/
theorem perform_congr (like : Like h h') (op : Operation)
    (stateless : ∀ id c, h.chains.find? id = some c → c.Stateless h.network)
    (agree : ∀ p, op.Touches h.chains p → h.world.store.slots p = h'.world.store.slots p) :
    Concord op h h' := by
  cases op with
  | run chain scopes context timeout => exact concord_run like (stateless chain) agree
  | endSession session => exact concord_endSession like agree
  | put scope key value id writtenAt => exact concord_put like
  | clear scope key id => exact concord_clear like agree
  | clearScope scope id => exact concord_clearScope like agree
  | release scope id => exact concord_release like

/-- An operation leaves the partitions alone that it does not touch. -/
theorem slots_perform_of_not_touches (idle : h.loop.isIdle = true) {op : Operation}
    (stateless : ∀ id c, h.chains.find? id = some c → c.Stateless h.network)
    (untouched : ¬ op.Touches h.chains p) :
    (h.perform op).2.world.store.slots p = h.world.store.slots p := by
  obtain ⟨edits, inside, store, _⟩ := (perform_congr (.refl idle) op stateless fun _ _ => rfl).edits
  rw [store]
  exact Store.slots_applyAll_of_ne _ fun e made there => untouched (there ▸ inside e made)

/-- An operation keeps the components, the chains and the idle loop of a harness. -/
theorem perform_like (idle : h.loop.isIdle = true) (op : Operation)
    (stateless : ∀ id c, h.chains.find? id = some c → c.Stateless h.network) :
    Like h (h.perform op).2 where
  network := (perform_congr (.refl idle) op stateless fun _ _ => rfl).network.symm
  chains := (perform_congr (.refl idle) op stateless fun _ _ => rfl).chains.symm
  idle := idle
  idle' := (perform_congr (.refl idle) op stateless fun _ _ => rfl).like.idle

end Harness

end TaintFlow
