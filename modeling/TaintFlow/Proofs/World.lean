import TaintFlow.World

/-!
# What shared operations do to the store

Calling a source or a sink leaves the store alone.  Applying an operator carries
out the edits that its answer asks for, and nothing else.
-/

namespace TaintFlow.World

@[simp] theorem say_store (w : World) (at_ : Location) (notice : Notice) :
    (w.say at_ notice).store = w.store := rfl

@[simp] theorem count_store (w : World) (metric : Metric) : (w.count metric).store = w.store := rfl

@[simp] theorem callCapability_store (w : World) (owner : Owner) (capability : Capability)
    (argument : Payload) (timeout : Option Timeout) :
    (w.callCapability owner capability argument timeout).2.store = w.store := rfl

@[simp] theorem edit_store (w : World) (at_ : Location) (e : Store.Edit) :
    (w.edit at_ e).store = w.store.apply e := by
  unfold edit
  cases editNotice w.store e <;> rfl

theorem editAll_store (w : World) (at_ : Location) (edits : List Store.Edit) :
    (w.editAll at_ edits).store = w.store.applyAll edits := by
  induction edits generalizing w with
  | nil => rfl
  | cons e rest ih =>
      have step : w.editAll at_ (e :: rest) = (w.edit at_ e).editAll at_ rest := rfl
      rw [step, ih, edit_store]
      rfl

@[simp] theorem noteFault_store (w : World) (at_ : Location) (fault : Fault) :
    (w.noteFault at_ fault).store = w.store := by
  unfold noteFault
  split <;> rfl

/-- An edit of the store says so, and changes nothing but the store. -/
theorem edit_kept (w : World) (at_ : Location) (e : Store.Edit) :
    (w.edit at_ e).flagged = w.flagged ∧ (w.edit at_ e).metrics = w.metrics := by
  unfold edit
  cases editNotice w.store e with
  | none => exact ⟨rfl, rfl⟩
  | some notice => exact ⟨rfl, rfl⟩

theorem editAll_kept (w : World) (at_ : Location) (edits : List Store.Edit) :
    (w.editAll at_ edits).flagged = w.flagged ∧ (w.editAll at_ edits).metrics = w.metrics := by
  induction edits generalizing w with
  | nil => exact ⟨rfl, rfl⟩
  | cons e rest ih =>
      obtain ⟨flags, counts⟩ := w.edit_kept at_ e
      exact ⟨(ih (w.edit at_ e)).1.trans flags, (ih (w.edit at_ e)).2.trans counts⟩

/-- A fault that is not about lost labels flags nothing and is not counted. -/
theorem noteFault_kept (w : World) (at_ : Location) {fault : Fault}
    (other : fault.kind ≠ .taintLoss) :
    (w.noteFault at_ fault).flagged = w.flagged ∧ (w.noteFault at_ fault).metrics = w.metrics := by
  unfold noteFault
  split
  · exact ⟨rfl, rfl⟩
  · rename_i lost
    exact absurd (congrArg Cause.kind lost) other
  · exact ⟨rfl, rfl⟩

/-- A source does not touch the store. -/
theorem callSource_store (w : World) (network : Network) (at_ : Location) (id : String)
    (context : Payload) (given : Option Timeout) :
    (w.callSource network at_ id context given).2.store = w.store := by
  unfold callSource
  split
  · rfl
  · dsimp only
    split <;> rfl

theorem callSink_store (w : World) (network : Network) (at_ : Location) (id : String)
    (value : Value) (given : Option Timeout) :
    (w.callSink network at_ id value given).2.store = w.store := by
  unfold callSink
  split
  · rfl
  · dsimp only
    split <;> rfl

theorem store_of_callSource {w w' : World} {network : Network} {at_ : Location} {id : String}
    {context : Payload} {given : Option Timeout} {outcome : Option (Except Fault Value)}
    (called : w.callSource network at_ id context given = (outcome, w')) :
    w'.store = w.store :=
  (congrArg (·.2.store) called).symm.trans (callSource_store w network at_ id context given)

theorem store_of_callSink {w w' : World} {network : Network} {at_ : Location} {id : String}
    {value : Value} {given : Option Timeout} {outcome : Option (Except Fault SinkResult)}
    (called : w.callSink network at_ id value given = (outcome, w')) : w'.store = w.store :=
  (congrArg (·.2.store) called).symm.trans (callSink_store w network at_ id value given)

/-- An operator makes the edits that its answer asks for. -/
theorem applyOperator_store (w : World) (network : Network) (at_ : Location) (id : String)
    (inputs : List Value) (params : Params) (step : Option Int) :
    (w.applyOperator network at_ id inputs params step).2.store =
      w.store.applyAll (network.engine.apply id inputs params step w.store).edits := by
  unfold applyOperator
  dsimp only
  split
  · rw [noteFault_store, editAll_store]
  · exact editAll_store w at_ _

/-- What comes of an operator is what the engine says. -/
theorem applyOperator_outcome (w : World) (network : Network) (at_ : Location) (id : String)
    (inputs : List Value) (params : Params) (step : Option Int) :
    (w.applyOperator network at_ id inputs params step).1 =
      (network.engine.apply id inputs params step w.store).outcome := by
  unfold applyOperator
  dsimp only
  split
  · rename_i outcome
    rw [outcome]
  · rfl

/-- A source that gives a value is registered, and the value carries its label. -/
theorem callSource_eq_ok {w w' : World} {network : Network} {at_ : Location} {id : String}
    {context : Payload} {given : Option Timeout} {value : Value}
    (gave : w.callSource network at_ id context given = (some (.ok value), w')) :
    ∃ s payload, network.sources.find? id = some s ∧ value = ⟨payload, .singleton s.label, 0⟩ := by
  unfold callSource at gave
  cases found : network.sources.get id with
  | error fault => simp [found] at gave
  | ok s =>
      rw [found] at gave
      have registered : network.sources.find? id = some s := by
        unfold Sources.get at found
        split at found
        · rename_i known
          rw [known, Except.ok.inj found]
        · cases found
      dsimp only at gave
      split at gave
      · simp at gave
      · simp at gave
      · simp at gave
      · rename_i payload _
        obtain ⟨same, -⟩ := Prod.mk.inj gave
        exact ⟨s, payload, registered, (Except.ok.inj (Option.some.inj same)).symm⟩

/-- A sink that accepts a value is registered, and says what it was handed. -/
theorem callSink_eq_ok {w w' : World} {network : Network} {at_ : Location} {id : String}
    {value : Value} {given : Option Timeout} {result : SinkResult}
    (accepted : w.callSink network at_ id value given = (some (.ok result), w')) :
    (∃ s, network.sinks.find? id = some s) ∧
      ∃ raw, result = { sink := id, accepted := true, raw, labels := value.labels
                        hops := value.hops } := by
  unfold callSink at accepted
  cases found : network.sinks.get id with
  | error fault => simp [found] at accepted
  | ok s =>
      rw [found] at accepted
      have registered : ∃ s, network.sinks.find? id = some s := by
        unfold Sinks.get at found
        split at found
        · exact ⟨_, by assumption⟩
        · cases found
      dsimp only at accepted
      split at accepted
      · simp at accepted
      · simp at accepted
      · simp at accepted
      · rename_i raw _
        obtain ⟨same, -⟩ := Prod.mk.inj accepted
        exact ⟨registered, raw, (Except.ok.inj (Option.some.inj same)).symm⟩

end TaintFlow.World
