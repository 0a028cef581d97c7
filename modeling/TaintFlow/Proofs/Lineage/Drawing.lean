import TaintFlow.Proofs.Data.Assoc
import TaintFlow.Proofs.Lineage.Graph
import TaintFlow.Proofs.Run.Turn

/-!
# Drawing the lineage of a run

The graph of a run is drawn from what the run reports.  Each source that gave a
value and each key that was read add a node, and so does each relay and each
merge that was done.  Beside the graph the drawing keeps, instead of values, the
nodes that they come from: those of the active values and those of the values
that the run has written.

`Depicts` says that a drawing shows the values of a run, and that what is kept
under the keys that the run has written is what it wrote last.
-/

namespace TaintFlow

/-- What a step can ask for. -/
inductive Need where
  | source (id : String)
  | stored (origin : StoreRef)
  deriving DecidableEq

/-- What a step asks for: its sources as they are listed, then the keys that it reads. -/
def Step.needs : Step → List Need
  | .source id => [.source id]
  | .load origin => [.stored origin]
  | .merge sources loads _ _ => sources.map .source ++ loads.map .stored
  | .relay .. | .store _ | .fanout _ | .sink _ => []

/-- All operators that a chain applies come with the library. -/
def Chain.UsesLibrary (engine : Engine) (c : Chain) : Prop :=
  ∀ id ∈ c.operators, ∃ operator ∈ Operator.library,
    operator.id = id ∧ engine.operators.find? id = some operator

namespace Lineage

open Run (Event)

/-- A graph that is being drawn. -/
structure Drawing where
  graph : Graph := []
  /-- The nodes of the active values, oldest first. -/
  stack : List Nat := []
  /-- What the next step has got of what it asks for. -/
  arrived : List (Need × Nat) := []
  /-- The nodes of the values that were written last. -/
  stored : Assoc StoreRef Nat := []

namespace Drawing

/-- A new node for something that was asked for. -/
def arrive (d : Drawing) (need : Need) (node : Node) : Drawing :=
  { d with
    graph := d.graph ++ [node]
    arrived := d.arrived ++ [(need, d.graph.length)] }

/-- A new node on top of the others, which takes its inputs from some nodes. -/
def apply (d : Drawing) (operator : String) (params : Params) (rest inputs : List Nat) : Drawing :=
  { d with
    graph := d.graph ++ [.applied operator params inputs]
    stack := rest ++ [d.graph.length]
    arrived := [] }

/-- The node of a stored value: the one that it was written from, or else a leaf. -/
def origin (d : Drawing) (ref : StoreRef) (value : Value) : Node :=
  match d.stored.find? ref with
  | some k => .kept k
  | none => .leaf value

/-- Draw a step that has got what it asks for. -/
def settle (engine : Engine) (d : Drawing) : Step → Option Drawing
  | .source _ | .load _ =>
    some { d with stack := d.stack ++ d.arrived.map Prod.snd, arrived := [] }
  | .relay id params => do
    let operator ← engine.operators.find? id
    let rest := d.stack.length - operator.arity.getD d.stack.length
    return d.apply id params (d.stack.take rest) (d.stack.drop rest)
  | .merge _ _ id params => some (d.apply id params d.stack (d.arrived.map Prod.snd))
  | .store target => do
    let k ← d.stack.getLast?
    return { d with stored := d.stored.put target k }
  | .fanout _ | .sink _ => some d

/-- Draw what an event reports.  A step can only be drawn if what has arrived is what it asks for,
in the order in which it is listed. -/
def note (engine : Engine) (c : Chain) (d : Drawing) : Event → Option Drawing
  | .gave source value => some (d.arrive (.source source) (.leaf value))
  | .read ref value => some (d.arrive (.stored ref) (d.origin ref value))
  | .passed i => do
    let step ← c.steps[i]?
    if d.arrived.map Prod.fst = step.needs then d.settle engine step else none
  | .delivered .. | .refused _ | .stopped .. => some d

end Drawing

/-- The drawing of everything that a run of a chain has reported. -/
def drawing (engine : Engine) (c : Chain) (log : List Event) : Option Drawing :=
  log.foldlM (Drawing.note engine c) {}

/-- A drawing shows the active values and what a step has got so far; what is kept under a key that
the run has written is the value that it wrote there last, one hop on. -/
structure Depicts (engine : Engine) (d : Drawing) (stack gathered : List Value)
    (kept : StoreRef → Value → Prop) : Prop where
  backward : d.graph.Backward
  active : List.Forall₂ (d.graph.IsValueOf engine) d.stack stack
  arrived : List.Forall₂ (d.graph.IsValueOf engine) (d.arrived.map Prod.snd) gathered
  stored : ∀ {target k}, d.stored.find? target = some k →
    ∃ v, d.graph.IsValueOf engine k v ∧ ∀ value, kept target value → value = v.forward

variable {engine : Engine} {c : Chain} {d : Drawing} {stack gathered : List Value}
  {kept : StoreRef → Value → Prop}

/-! ## Operators -/

/-- An operator of the library has made a value. -/
structure MadeBy (engine : Engine) (id : String) (values : List Value) (params : Params)
    (store : Store) (output : Value) : Prop where
  made : ∃ operator ∈ Operator.library, operator.id = id ∧
    engine.operators.find? id = some operator ∧ engine.Makes values params store operator output

/-- A node of an operator of the library says what the operator makes of its inputs. -/
theorem MadeBy.isValueOf {g : Graph} {id : String} {params : Params} {inputs : List Nat}
    {values : List Value} {store : Store} {output : Value}
    (made : MadeBy engine id values params store output) (backward : g.Backward)
    (all : List.Forall₂ (g.IsValueOf engine) inputs values) :
    (g ++ [Node.applied id params inputs]).IsValueOf engine g.length output := by
  obtain ⟨operator, inside, named, found, made⟩ := made.made
  have transparent := Operator.isTransparent_of_mem_library inside
  refine .inner backward (fun _ same => by cases same) all made.nonempty ?_ ?_ made.hops
  · show (inputs.mapM _ >>= engine.onPayloads id params) = _
    rw [Graph.mapM_payloads all]
    exact made.onPayloads found transparent
  · have labels := (made.carries transparent).1
    rw [Operator.preserving_of_mem_library operator inside, named] at labels
    rw [labels]
    by_cases literal : id = "literal"
    · simp [Node.isLiteral, literal]
    · simp [Node.isLiteral, literal]

/-! ## Nodes that are added -/

/-- The last items of two lists that are related are related. -/
theorem forall₂_getLast? {α β : Type} {R : α → β → Prop} {as : List α} {bs : List β} {b : β}
    (all : List.Forall₂ R as bs) (last : bs.getLast? = some b) :
    ∃ a, as.getLast? = some a ∧ R a b := by
  induction all with
  | nil => cases last
  | @cons a b' as bs first rest ih =>
      cases rest with
      | nil =>
          obtain rfl := Option.some.inj last
          exact ⟨a, rfl, first⟩
      | cons second rest =>
          rw [List.getLast?_cons_cons] at last ⊢
          exact ih last

theorem Depicts.nil : Depicts engine {} [] [] kept :=
  ⟨Graph.backward_nil, .nil, .nil, nofun⟩

/-- What a drawing shows it still shows with one more node. -/
theorem Depicts.grow (depicts : Depicts engine d stack gathered kept) {node : Node}
    (earlier : ∀ i ∈ node.inputs, i < d.graph.length) :
    Depicts engine { d with graph := d.graph ++ [node] } stack gathered kept where
  backward := depicts.backward.append earlier
  active := depicts.active.imp fun _ _ is => is.append depicts.backward node
  arrived := depicts.arrived.imp fun _ _ is => is.append depicts.backward node
  stored := by
    intro target k found
    obtain ⟨v, is, same⟩ := depicts.stored found
    exact ⟨v, is.append depicts.backward node, same⟩

/-- Something that was asked for has arrived. -/
theorem Depicts.arrive (depicts : Depicts engine d stack gathered kept) {node : Node}
    {value : Value} (need : Need) (earlier : ∀ i ∈ node.inputs, i < d.graph.length)
    (is : (d.graph ++ [node]).IsValueOf engine d.graph.length value) :
    Depicts engine (d.arrive need node) stack (gathered ++ [value]) kept := by
  have grown := depicts.grow earlier
  refine ⟨grown.backward, grown.active, ?_, grown.stored⟩
  show List.Forall₂ _ ((d.arrived ++ [(need, d.graph.length)]).map Prod.snd) _
  rw [List.map_append]
  exact List.rel_append grown.arrived (.cons is .nil)

theorem Depicts.gave (depicts : Depicts engine d stack gathered kept) (source : String)
    (value : Value) :
    Depicts engine (d.arrive (.source source) (.leaf value)) stack (gathered ++ [value]) kept :=
  depicts.arrive _ (fun _ inside => absurd inside List.not_mem_nil)
    (.leaf engine depicts.backward value)

theorem Depicts.read (depicts : Depicts engine d stack gathered kept) {ref : StoreRef}
    {value : Value} (lives : kept ref value) :
    Depicts engine (d.arrive (.stored ref) (d.origin ref value)) stack (gathered ++ [value])
      kept := by
  unfold Drawing.origin
  cases found : d.stored.find? ref with
  | none =>
      exact depicts.arrive _ (fun _ inside => absurd inside List.not_mem_nil)
        (.leaf engine depicts.backward value)
  | some k =>
      obtain ⟨v, is, same⟩ := depicts.stored found
      rw [same value lives]
      refine depicts.arrive _ ?_ (is.kept depicts.backward)
      intro i inside
      rw [List.mem_singleton.mp inside]
      exact Graph.lt_of_payloadAt is.payload

theorem Depicts.reads {loads : List StoreRef} {found : List Value}
    (depicts : Depicts engine d stack gathered kept) (all : List.Forall₂ kept loads found) :
    ∃ d', (List.zipWith Event.read loads found).foldlM (Drawing.note engine c) d = some d' ∧
      Depicts engine d' stack (gathered ++ found) kept ∧
      d'.arrived.map Prod.fst = d.arrived.map Prod.fst ++ loads.map .stored ∧
      d'.stored = d.stored := by
  induction all generalizing d gathered with
  | nil =>
      refine ⟨d, rfl, ?_, (List.append_nil _).symm, rfl⟩
      rw [List.append_nil]
      exact depicts
  | @cons ref value loads found lives rest ih =>
      obtain ⟨d', drawn, shown, listed, stored⟩ := ih (depicts.read lives)
      refine ⟨d', drawn, ?_, ?_, stored⟩
      · rw [List.append_cons]
        exact shown
      · rw [listed]
        simp [Drawing.arrive]

theorem Depicts.push (depicts : Depicts engine d stack gathered kept) :
    Depicts engine { d with stack := d.stack ++ d.arrived.map Prod.snd, arrived := [] }
      (stack ++ gathered) [] kept :=
  ⟨depicts.backward, List.rel_append depicts.active depicts.arrived, .nil, depicts.stored⟩

/-- An operator has made a value of those of some nodes. -/
theorem Depicts.apply {id : String} {params : Params} {rest inputs : List Nat}
    {others values : List Value} {output : Value} {store : Store}
    (depicts : Depicts engine d stack gathered kept)
    (made : MadeBy engine id values params store output)
    (left : List.Forall₂ (d.graph.IsValueOf engine) rest others)
    (taken : List.Forall₂ (d.graph.IsValueOf engine) inputs values) :
    Depicts engine (d.apply id params rest inputs) (others ++ [output]) [] kept := by
  have grown : Depicts engine { d with graph := d.graph ++ [.applied id params inputs] } stack
      gathered kept := by
    refine depicts.grow fun i input => ?_
    obtain ⟨v, _, is⟩ := Graph.exists_value taken input
    exact Graph.lt_of_payloadAt is.payload
  refine ⟨grown.backward, List.rel_append ?_ (.cons ?_ .nil), .nil, grown.stored⟩
  · exact left.imp fun _ _ is => is.append depicts.backward _
  · exact made.isValueOf depicts.backward taken

theorem Depicts.last {value : Value} (depicts : Depicts engine d stack gathered kept)
    (top : stack.getLast? = some value) :
    ∃ k, d.stack.getLast? = some k ∧ d.graph.IsValueOf engine k value :=
  forall₂_getLast? depicts.active top

/-- The active value was written. -/
theorem Depicts.store {target : StoreRef} {value : Value} {now : StoreRef → Value → Prop}
    (depicts : Depicts engine d stack gathered kept) (top : stack.getLast? = some value)
    (written : ∀ v, now target v → v = value.forward)
    (others : ∀ other v, other ≠ target → now other v → kept other v) :
    ∃ k, d.stack.getLast? = some k ∧
      Depicts engine { d with stored := d.stored.put target k } stack gathered now := by
  obtain ⟨k, last, is⟩ := depicts.last top
  refine ⟨k, last, depicts.backward, depicts.active, depicts.arrived, ?_⟩
  intro other j found
  by_cases same : other = target
  · rw [same, Assoc.find?_put_self] at found
    obtain rfl := Option.some.inj found
    exact ⟨value, is, fun v lives => written v (same ▸ lives)⟩
  · rw [Assoc.find?_put_of_ne same] at found
    obtain ⟨v, is, only⟩ := depicts.stored found
    exact ⟨v, is, fun value lives => only value (others other value same lives)⟩

/-- What is kept may have become less. -/
theorem Depicts.of_kept {now : StoreRef → Value → Prop}
    (depicts : Depicts engine d stack gathered kept)
    (less : ∀ target k, d.stored.find? target = some k → ∀ value, now target value →
      kept target value) : Depicts engine d stack gathered now where
  backward := depicts.backward
  active := depicts.active
  arrived := depicts.arrived
  stored := by
    intro target k found
    obtain ⟨v, is, only⟩ := depicts.stored found
    exact ⟨v, is, fun value lives => only value (less target k found value lives)⟩

end Lineage

end TaintFlow
