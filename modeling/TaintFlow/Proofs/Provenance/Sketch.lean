import TaintFlow.Chain.Execution
import TaintFlow.Proofs.Chain.Depth
import TaintFlow.Proofs.Relay.Library

/-!
# Sketches of runs

A sketch shows the values of a run without their payloads.  What a step makes of a
sketch is read off the step itself: sources give their labels, operators keep the
labels of their inputs or drop them all, and the store gives back what was put
there.  No payload has a part in it, so networks that differ only in what their
components do to payloads make the same of it.
-/

namespace TaintFlow

/-! ## Values without their payloads -/

namespace Value

/-- A value without its payload. -/
def outline (v : Value) : Value := { v with payload := .null }

@[simp] theorem outline_labels (v : Value) : v.outline.labels = v.labels := rfl

@[simp] theorem outline_forward (v : Value) : v.forward.outline = v.outline.forward := rfl

@[simp] theorem unionLabels_map_outline (values : List Value) :
    unionLabels (values.map outline) = unionLabels values := by
  induction values with
  | nil => rfl
  | cons v rest ih => rw [List.map_cons, unionLabels_cons, unionLabels_cons, ih, outline_labels]

@[simp] theorem furthest_map_outline (values : List Value) :
    furthest (values.map outline) = furthest values := by
  induction values with
  | nil => rfl
  | cons v rest ih => exact congrArg (max v.hops) ih

end Value

theorem classify_outline (inputs : List Value) (output : Value) :
    classify (inputs.map Value.outline) output.outline = classify inputs output := by
  have tainted : ((inputs.map Value.outline).filter Value.isTainted).length =
      (inputs.filter Value.isTainted).length := by
    rw [List.filter_map, List.length_map]
    rfl
  unfold classify missingLabels
  rw [Value.unionLabels_map_outline, Value.outline_labels, tainted]

/-- What can be read at a key, without the payload. -/
def Store.outline? (s : Store) (p : Partition) (key : String) : Option Value :=
  match s.slot? p key with
  | some (.live value _) => some value.outline
  | _ => none

theorem Store.outline?_write (s : Store) (p q : Partition) (key other : String) (value : Value)
    (writtenAt : Int) :
    (s.write p key value writtenAt).outline? q other =
      if q = p ∧ other = key then some value.outline else s.outline? q other := by
  unfold Store.outline?
  by_cases same : q = p ∧ other = key
  · rw [if_pos same, same.1, same.2, slot?_write_self]
  · rw [if_neg same, slot?_write_of_ne s (not_and_or.mp same)]

/-! ## What components give -/

namespace Network

/-- What a source gives, without the payload. -/
def given (network : Network) (id : String) : Value :=
  { labels := match (network.sources.find? id).map Source.label with
      | some label => .singleton label
      | none => ∅ }

/-- The number of values that an operator takes of those that are active. -/
def taken (network : Network) (id : String) (held : Nat) : Nat :=
  match (network.engine.operators.find? id).map Operator.arity with
  | some arity => arity.getD held
  | none => 0

/-- What an operator makes of its inputs, without the payload. -/
def made (network : Network) (id : String) (inputs : List Value) : Value :=
  { labels := match (network.engine.operators.find? id).map Operator.preserving with
      | some true => Value.unionLabels inputs
      | _ => ∅
    hops := Value.furthest inputs + 1 }

/-- Two networks whose components have the same ids, the same labels and the same numbers of
inputs, and agree on which of them preserve labels.  What they do to payloads may differ. -/
structure Alike (network other : Network) : Prop where
  shape : Chain.SameShape network other
  labels : ∀ id, (other.sources.find? id).map Source.label =
    (network.sources.find? id).map Source.label
  preserving : ∀ id, (other.engine.operators.find? id).map Operator.preserving =
    (network.engine.operators.find? id).map Operator.preserving

theorem Alike.refl (network : Network) : network.Alike network :=
  ⟨⟨fun _ => rfl, fun _ => rfl, fun _ => rfl⟩, fun _ => rfl, fun _ => rfl⟩

variable {network other : Network}

theorem Alike.given_eq (alike : network.Alike other) : other.given = network.given := by
  funext id
  unfold given
  rw [alike.labels]

theorem Alike.taken_eq (alike : network.Alike other) : other.taken = network.taken := by
  funext id held
  unfold taken
  rw [alike.shape.operators]

theorem Alike.made_eq (alike : network.Alike other) : other.made = network.made := by
  funext id inputs
  unfold made
  rw [alike.preserving]

end Network

/-! ## Sketches -/

/-- The active values of a run, the labels that have entered it and what it can read, all without
their payloads. -/
structure Sketch where
  stack : List Value := []
  origins : LabelSet := ∅
  kept : Partition → String → Option Value

namespace Sketch

/-- The active value. -/
def top (sk : Sketch) : Value := sk.stack.getLast?.getD {}

/-- What is read under a key. -/
def read (scopes : RunScopes) (sk : Sketch) (origin : StoreRef) : Value :=
  match origin.scope.partition (scopes.idFor origin.scope) with
  | .ok p => (sk.kept p origin.key).getD {}
  | .error _ => {}

/-- The inputs of a merge: what its sources give, and then what it reads. -/
def inputs (network : Network) (scopes : RunScopes) (sk : Sketch) (sources : List String)
    (loads : List StoreRef) : List Value :=
  sources.map network.given ++ loads.map (sk.read scopes)

/-- The sketch with a value that has entered the run and is active. -/
def enter (sk : Sketch) (value : Value) : Sketch :=
  { sk with stack := sk.stack ++ [value], origins := sk.origins ∪ value.labels }

/-- The sketch with a value that is kept under a key. -/
def keep (scopes : RunScopes) (sk : Sketch) (target : StoreRef) (value : Value) : Sketch :=
  match target.scope.partition (scopes.idFor target.scope) with
  | .ok p => { sk with kept := fun q key =>
      if q = p ∧ key = target.key then some value else sk.kept q key }
  | .error _ => sk

/-- What a step makes of a sketch, the value that it shows, and what it says of its labels. -/
def pass (network : Network) (scopes : RunScopes) (sk : Sketch) :
    Step → Sketch × Value × HopOutcome
  | .source id => (sk.enter (network.given id), network.given id, .introduced)
  | .relay id _ =>
    let below := sk.stack.length - network.taken id sk.stack.length
    let inputs := sk.stack.drop below
    let output := network.made id inputs
    ({ sk with stack := sk.stack.take below ++ [output] }, output, classify inputs output)
  | .store target => (sk.keep scopes target sk.top.forward, sk.top.forward, .preserved)
  | .load origin => (sk.enter (sk.read scopes origin), sk.read scopes origin, .introduced)
  | .merge sources loads id _ =>
    let inputs := sk.inputs network scopes sources loads
    let output := network.made id inputs
    ({ sk with stack := sk.stack ++ [output], origins := sk.origins ∪ Value.unionLabels inputs },
      output, classify inputs output)
  | .fanout _ | .sink _ => (sk, sk.top.forward, .preserved)

/-- The sketch of a run before a step of its chain, from what could be read when it started. -/
def before (network : Network) (scopes : RunScopes) (kept : Partition → String → Option Value)
    (c : Chain) (i : Nat) : Sketch :=
  (c.steps.take i).foldl (fun sk step => (sk.pass network scopes step).1) { kept }

/-- Do all labels that have entered the run come with the active value? -/
def isWhole (sk : Sketch) : Bool := sk.top.isTainted && (sk.origins \ sk.top.labels).isEmpty

variable {network other : Network} {scopes : RunScopes}
  {kept : Partition → String → Option Value} {c : Chain} {i : Nat} {step : Step}

theorem before_succ (here : c.steps[i]? = some step) :
    before network scopes kept c (i + 1) =
      ((before network scopes kept c i).pass network scopes step).1 := by
  unfold before
  rw [List.take_add_one, here]
  exact List.foldl_concat _ _ _ _

/-- Networks that are alike make the same of sketches. -/
theorem pass_congr (alike : network.Alike other) :
    Sketch.pass other scopes = Sketch.pass network scopes := by
  funext sk step
  cases step with
  | source id => simp only [pass, alike.given_eq]
  | relay id params => simp only [pass, alike.taken_eq, alike.made_eq]
  | store target => rfl
  | load origin => rfl
  | merge sources loads id params => simp only [pass, inputs, alike.given_eq, alike.made_eq]
  | fanout sinks => rfl
  | sink id => rfl

theorem before_congr (alike : network.Alike other) :
    before other scopes kept c i = before network scopes kept c i := by
  unfold before
  rw [pass_congr alike]

end Sketch

end TaintFlow
