import TaintFlow.Proofs.Relay.Loss
import TaintFlow.Proofs.World

/-!
# The non-loss contract

Operators are applied one after the other, each in the world that the ones before
it left.  An output stands one hop past the furthest input and has the labels that
it must have; an operator that drops a label is refused, flagged and counted, and
no other is.  The main statement is `nonloss_contract`.
-/

namespace TaintFlow

/-- The distance of the value that has travelled furthest is the largest of all. -/
theorem Value.max?_hops {values : List Value} (nonempty : values ≠ []) :
    (values.map Value.hops).max? = some (Value.furthest values) := by
  rw [List.max?_eq_some_iff]
  constructor
  · induction values with
    | nil => exact absurd rfl nonempty
    | cons v rest ih =>
        have step : furthest (v :: rest) = max v.hops (furthest rest) := rfl
        rw [step, List.map_cons, List.mem_cons]
        cases rest with
        | nil => exact .inl (Nat.max_zero v.hops)
        | cons next others =>
            rcases Nat.le_total v.hops (furthest (next :: others)) with below | above
            · rw [Nat.max_eq_right below]
              exact .inr (ih nofun)
            · exact .inl (Nat.max_eq_left above)
  · intro hops inside
    obtain ⟨v, there, rfl⟩ := List.mem_map.mp inside
    exact hops_le_furthest there

/-- A call of the engine.  It meets the engine as that is then: operators may be added between two
calls, and a function that remembers its calls is another function at each. -/
structure Application where
  network : Network
  at_ : World.Location := {}
  id : String
  inputs : List Value
  params : Params := []
  step : Option Int := none

namespace Application

/-- What comes of a call. -/
def outcome (a : Application) (w : World) : Option (Except Fault Value) :=
  (w.applyOperator a.network a.at_ a.id a.inputs a.params a.step).1

/-- The world after a call. -/
def after (a : Application) (w : World) : World :=
  (w.applyOperator a.network a.at_ a.id a.inputs a.params a.step).2

/-- The operator of a call must keep labels, and its function hands back a value that lacks one. -/
def Drops (a : Application) (w : World) : Prop :=
  a.network.engine.Drops a.id a.inputs a.params w.store

instance (a : Application) (w : World) : Decidable (a.Drops w) :=
  inferInstanceAs (Decidable (a.network.engine.Drops a.id a.inputs a.params w.store))

/-- What a call is promised: how far its output stands, which labels it has, and when it is refused
because labels were lost. -/
structure Kept (a : Application) (w : World) : Prop where
  hops : ∀ output, a.outcome w = some (.ok output) →
    ∃ furthest, (a.inputs.map Value.hops).max? = some furthest ∧ output.hops = furthest + 1
  preserved : ∀ operator output, a.network.engine.operators.find? a.id = some operator →
    a.outcome w = some (.ok output) → operator.preserving = true →
      Value.unionLabels a.inputs ⊆ output.labels
  lifted : ∀ operator output, a.network.engine.operators.find? a.id = some operator →
    a.outcome w = some (.ok output) → operator.lifted = true →
      output.labels = if operator.preserving then Value.unionLabels a.inputs else ∅
  refused : ∀ operator (value : Value), a.network.engine.operators.find? a.id = some operator →
    operator.preserving = true → operator.lifted = false →
      a.network.engine.given operator a.inputs a.params w.store = some value.asPayload →
        ¬ Value.unionLabels a.inputs ⊆ value.labels →
          ∃ fault, a.outcome w = some (.error fault) ∧ fault.kind = .taintLoss ∧
            fault.cause.missing = Value.unionLabels a.inputs \ value.labels
  onlyThen : ∀ fault, a.outcome w = some (.error fault) → fault.kind = .taintLoss → a.Drops w

variable {a : Application} {w : World}

theorem outcome_eq (a : Application) (w : World) :
    a.outcome w = (a.network.engine.apply a.id a.inputs a.params a.step w.store).outcome :=
  w.applyOperator_outcome a.network a.at_ a.id a.inputs a.params a.step

/-- Every call is promised this. -/
theorem kept (built : a.network.engine.Built) : a.Kept w where
  hops := by
    intro output came
    rw [outcome_eq, Engine.apply_eq_ok] at came
    obtain ⟨operator, _, made⟩ := came
    exact ⟨_, Value.max?_hops made.nonempty, made.hops⟩
  preserved := by
    intro operator output found came must
    rw [outcome_eq, Engine.apply_eq_ok] at came
    obtain ⟨_, same, made⟩ := came
    obtain rfl := Option.some.inj (found.symm.trans same)
    exact made.kept must
  lifted := by
    intro operator output found came lifted
    rw [outcome_eq] at came
    rcases Engine.apply_cases found with ⟨payload, _, concluded⟩ | ⟨_, failed⟩
    · obtain ⟨_, passed, labels⟩ := Engine.conclude_of_lifted lifted a.inputs a.step payload
      rw [concluded, passed] at came
      obtain rfl := Except.ok.inj (Option.some.inj came)
      exact labels
    · obtain ⟨_, same, _⟩ := failed _ came
      cases same
  refused := by
    intro operator value found must whole gave lacks
    have answers := Engine.answered_eq_some.mpr ⟨operator, found, must, whole, gave⟩
    rw [outcome_eq]
    exact ⟨_, Engine.apply_of_drops built a.step answers lacks, rfl, rfl⟩
  onlyThen := by
    intro fault came loss
    rw [outcome_eq] at came
    exact Engine.drops_of_loss built came loss

/-- An operator that drops a label is flagged and counted. -/
theorem after_of_drops (built : a.network.engine.Built) (drops : a.Drops w) :
    (a.after w).flagged = w.flagged.insert a.id ∧
      (a.after w).metrics = w.metrics.bump (.taintLoss a.id) := by
  obtain ⟨value, answers, lacks⟩ := drops
  have refused := Engine.apply_of_drops built a.step answers lacks
  obtain ⟨flags, counts⟩ := w.editAll_kept a.at_
    (a.network.engine.apply a.id a.inputs a.params a.step w.store).edits
  unfold after World.applyOperator
  dsimp only
  rw [refused]
  exact ⟨congrArg (SortedSet.insert a.id) flags, congrArg (Metrics.bump · _) counts⟩

/-- A call that drops no label flags and counts none. -/
theorem after_of_keeps (built : a.network.engine.Built) (keeps : ¬ a.Drops w) :
    (a.after w).flagged = w.flagged ∧ (a.after w).metrics = w.metrics := by
  obtain ⟨flags, counts⟩ := w.editAll_kept a.at_
    (a.network.engine.apply a.id a.inputs a.params a.step w.store).edits
  unfold after World.applyOperator
  dsimp only
  split
  · rename_i fault came
    have other : fault.kind ≠ .taintLoss := fun loss =>
      keeps (Engine.drops_of_loss built came loss)
    obtain ⟨sameFlags, sameCounts⟩ := World.noteFault_kept _ a.at_ other
    exact ⟨sameFlags.trans flags, sameCounts.trans counts⟩
  · exact ⟨flags, counts⟩

/-- What a call does to the flags. -/
theorem mem_flagged_after (built : a.network.engine.Built) (id : String) :
    id ∈ (a.after w).flagged ↔ id ∈ w.flagged ∨ a.id = id ∧ a.Drops w := by
  by_cases drops : a.Drops w
  · rw [(after_of_drops built drops).1, SortedSet.mem_insert]
    constructor
    · rintro (rfl | before)
      · exact .inr ⟨rfl, drops⟩
      · exact .inl before
    · rintro (before | ⟨rfl, _⟩)
      · exact .inr before
      · exact .inl rfl
  · rw [(after_of_keeps built drops).1]
    constructor
    · exact .inl
    · rintro (before | ⟨_, now⟩)
      · exact before
      · exact absurd now drops

/-- What a call does to the counts of losses. -/
theorem count_after (built : a.network.engine.Built) (id : String) :
    (a.after w).metrics.count (.taintLoss id) =
      w.metrics.count (.taintLoss id) + if a.id = id ∧ a.Drops w then 1 else 0 := by
  by_cases drops : a.Drops w
  · rw [(after_of_drops built drops).2, Metrics.count_bump]
    simp only [Metric.taintLoss.injEq, drops, and_true, eq_comm]
  · rw [(after_of_keeps built drops).2, if_neg fun both => drops both.2]
    rfl

end Application

/-- The world after several calls in turn. -/
def World.afterAll (w : World) (calls : List Application) : World :=
  calls.foldl (fun w a => a.after w) w

/-- Several calls in turn, each with the world that it meets. -/
def World.meetings (w : World) : List Application → List (World × Application)
  | [] => []
  | a :: rest => (w, a) :: (a.after w).meetings rest

namespace World

variable {w : World} {calls : List Application}

/-- Every call is met. -/
theorem meetings_calls (w : World) (calls : List Application) :
    (w.meetings calls).map Prod.snd = calls := by
  induction calls generalizing w with
  | nil => rfl
  | cons a rest ih => exact congrArg (a :: ·) (ih (a.after w))

/-- An operator is flagged if it was, or has dropped a label since. -/
theorem mem_flagged_afterAll (built : ∀ a ∈ calls, a.network.engine.Built) (id : String) :
    id ∈ (w.afterAll calls).flagged ↔
      id ∈ w.flagged ∨ ∃ m ∈ w.meetings calls, m.2.id = id ∧ m.2.Drops m.1 := by
  -- along the calls, for every world: the rest of them meet the world that the first one left
  induction calls generalizing w with
  | nil => simp [afterAll, meetings]
  | cons a rest ih =>
      have first := built a List.mem_cons_self
      have others := fun other inside => built other (List.mem_cons_of_mem a inside)
      have later := ih (w := a.after w) others
      rw [Application.mem_flagged_after first] at later
      simp only [meetings, List.mem_cons, exists_eq_or_imp]
      rw [← or_assoc]
      exact later

/-- The losses of an operator are counted once each. -/
theorem count_afterAll (built : ∀ a ∈ calls, a.network.engine.Built) (id : String) :
    (w.afterAll calls).metrics.count (.taintLoss id) =
      w.metrics.count (.taintLoss id) +
        (w.meetings calls).countP fun m => m.2.id = id ∧ m.2.Drops m.1 := by
  induction calls generalizing w with
  | nil => rfl
  | cons a rest ih =>
      have first := built a List.mem_cons_self
      have others := fun other inside => built other (List.mem_cons_of_mem a inside)
      have later := ih (w := a.after w) others
      rw [Application.count_after first] at later
      rw [meetings, List.countP_cons]
      simp only [decide_eq_true_eq]
      exact later.trans (by omega)

/-- **The non-loss contract.**  Whatever the functions of the operators do, every call is under it;
flagged are exactly the operators that dropped a label, and each of their losses was counted. -/
theorem nonloss_contract (fresh : w.flagged = ∅) (built : ∀ a ∈ calls, a.network.engine.Built) :
    (∀ m ∈ w.meetings calls, m.2.Kept m.1) ∧
    (∀ id, id ∈ (w.afterAll calls).flagged ↔
      ∃ m ∈ w.meetings calls, m.2.id = id ∧ m.2.Drops m.1) ∧
    ∀ id, (w.afterAll calls).metrics.count (.taintLoss id) =
      w.metrics.count (.taintLoss id) +
        (w.meetings calls).countP fun m => m.2.id = id ∧ m.2.Drops m.1 := by
  refine ⟨fun m inside => ?_, fun id => ?_, fun id => count_afterAll built id⟩
  · have called : m.2 ∈ (w.meetings calls).map Prod.snd := List.mem_map_of_mem inside
    rw [meetings_calls] at called
    exact Application.kept (built m.2 called)
  · rw [mem_flagged_afterAll built, fresh]
    simp

/-- An operator that forgets where its input comes from. -/
def forgetful : Operator where
  id := "forgetful"
  action := .onValues fun values _ _ =>
    { result := .ok (Value.constant (values.headD default).payload).asPayload }

/-- A call of the forgetful operator. -/
def forgetting (v : Value) : Application where
  network := { engine := { operators := [("forgetful", forgetful)] } }
  id := "forgetful"
  inputs := [v]

/-- What comes from nowhere can be forgotten; an input that comes from somewhere cannot, and each
attempt is counted. -/
theorem nonloss_contract_forgetful :
    let body : Value := ⟨.text "x", .singleton ⟨"form", .httpBody, .untrusted⟩, 3⟩
    let calls := [forgetting body, forgetting (.constant .null), forgetting body]
    (∀ a ∈ calls, a.network.engine.Built) ∧
      (∀ m ∈ ({} : World).meetings calls, m.2.Kept m.1) ∧
      "forgetful" ∈ (({} : World).afterAll calls).flagged ∧
      (({} : World).afterAll calls).metrics.count (.taintLoss "forgetful") = 2 := by
  intro body calls
  have built : ∀ a ∈ calls, a.network.engine.Built := by
    have blameless : forgetful.Blameless := fun _ _ _ _ => nofun
    have one (v : Value) : (forgetting v).network.engine.Built :=
      .add (.plain false) blameless rfl
    intro a inside
    simp only [calls, List.mem_cons, List.not_mem_nil, or_false] at inside
    rcases inside with rfl | rfl | rfl
    · exact one body
    · exact one (.constant .null)
    · exact one body
  have fresh : ({} : World).flagged = ∅ := rfl
  obtain ⟨kept, flags, counts⟩ := nonloss_contract fresh built
  refine ⟨built, kept, ?_, ?_⟩
  · rw [flags]
    exact ⟨_, List.mem_cons_self, rfl, by decide⟩
  · rw [counts]
    decide

end World

end TaintFlow
