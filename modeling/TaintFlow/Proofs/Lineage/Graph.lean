import Mathlib.Data.List.Forall2
import Mathlib.Data.List.Induction
import TaintFlow.Proofs.Relay.Library

/-!
# Graphs of lineage

The leaves of a graph are values that come from outside.  Every other node stands
for an operator that is applied to earlier nodes or for an earlier node that was
written and read again.  What a graph says of a node are the payload that comes out
there, the leaves that have a path to it, and how long these paths are.
-/

namespace TaintFlow.Lineage

/-- A node of a graph; the nodes that it takes its inputs from are named by their indices. -/
inductive Node where
  | leaf (value : Value)
  | applied (operator : String) (params : Params) (inputs : List Nat)
  | kept (input : Nat)

/-- The nodes of a graph, oldest first. -/
abbrev Graph := List Node

namespace Node

/-- The nodes that a node takes its inputs from, in order. -/
def inputs : Node → List Nat
  | leaf _ => []
  | applied _ _ inputs => inputs
  | kept input => [input]

/-- Does a node replace its input by a constant? -/
def isLiteral : Node → Bool
  | applied operator _ _ => operator = "literal"
  | _ => false

/-- The payload of a node, given those of earlier nodes. -/
def payload? (engine : Engine) (earlier : List (Option Payload)) : Node → Option Payload
  | leaf value => some value.payload
  | applied operator params inputs => do
    engine.onPayloads operator params (← inputs.mapM fun i => (earlier[i]?).join)
  | kept input => (earlier[input]?).join

end Node

namespace Graph

/-- The payloads of all nodes. -/
def payloads (engine : Engine) (g : Graph) : List (Option Payload) :=
  g.foldl (fun earlier node => earlier ++ [node.payload? engine earlier]) []

/-- The payload of a node, if every operator before it and its own give one. -/
def payloadAt (engine : Engine) (g : Graph) (k : Nat) : Option Payload :=
  ((g.payloads engine)[k]?).join

/-- Every node takes its inputs from earlier ones. -/
def Backward (g : Graph) : Prop :=
  ∀ (k : Nat) (node : Node), g[k]? = some node → ∀ i ∈ node.inputs, i < k

/-- A path from a leaf to a node, with the nodes that it goes through, latest first. -/
inductive Path (g : Graph) : Value → List Node → Nat → Prop
  | leaf {k : Nat} {value : Value} (here : g[k]? = some (.leaf value)) : Path g value [] k
  | through {value : Value} {via : List Node} {i k : Nat} {node : Node}
      (path : Path g value via i) (here : g[k]? = some node) (input : i ∈ node.inputs) :
      Path g value (node :: via) k

/-- A value is what a graph says of a node: its payload is the one that comes out there, its labels
are those of the leaves that have a path to the node on which nothing is replaced by a constant, and
it has travelled as far as the longest way from a leaf. -/
structure IsValueOf (engine : Engine) (g : Graph) (k : Nat) (v : Value) : Prop where
  payload : g.payloadAt engine k = some v.payload
  labels : ∀ label, label ∈ v.labels ↔ ∃ value via, Path g value via k ∧
    (∀ node ∈ via, node.isLiteral = false) ∧ label ∈ value.labels
  attained : ∃ value via, Path g value via k ∧ v.hops = value.hops + via.length
  bounded : ∀ value via, Path g value via k → value.hops + via.length ≤ v.hops

variable {engine : Engine} {g : Graph} {node : Node} {k : Nat} {v : Value}

/-- A graph says only one thing of a node. -/
theorem IsValueOf.unique {other : Value} (is : IsValueOf engine g k v)
    (also : IsValueOf engine g k other) : v = other := by
  have payload : v.payload = other.payload :=
    Option.some.inj (is.payload.symm.trans also.payload)
  have labels : v.labels = other.labels := by
    refine SortedSet.ext fun label => ?_
    rw [is.labels, also.labels]
  have hops : v.hops = other.hops := by
    obtain ⟨_, _, path, far⟩ := is.attained
    obtain ⟨_, _, path', far'⟩ := also.attained
    have := is.bounded _ _ path'
    have := also.bounded _ _ path
    omega
  cases v
  cases other
  congr

/-! ## One more node -/

theorem payloads_append (engine : Engine) (g : Graph) (node : Node) :
    payloads engine (g ++ [node]) =
      payloads engine g ++ [node.payload? engine (payloads engine g)] := by
  unfold payloads
  rw [List.foldl_append]
  rfl

@[simp] theorem length_payloads (engine : Engine) (g : Graph) :
    (payloads engine g).length = g.length := by
  induction g using List.reverseRecOn with
  | nil => rfl
  | append_singleton g node ih =>
      rw [payloads_append, List.length_append, List.length_append, ih]
      rfl

/-- A node keeps its payload when others follow it. -/
theorem payloadAt_append (engine : Engine) (node : Node) (inside : k < g.length) :
    payloadAt engine (g ++ [node]) k = payloadAt engine g k := by
  unfold payloadAt
  rw [payloads_append, List.getElem?_append_left]
  rw [length_payloads]
  exact inside

theorem payloadAt_last (engine : Engine) (g : Graph) (node : Node) :
    payloadAt engine (g ++ [node]) g.length = node.payload? engine (payloads engine g) := by
  unfold payloadAt
  rw [payloads_append, ← length_payloads engine g, List.getElem?_concat_length]
  rfl

theorem lt_of_payloadAt {payload : Payload} (there : payloadAt engine g k = some payload) :
    k < g.length := by
  unfold payloadAt at there
  cases found : (payloads engine g)[k]? with
  | none =>
      rw [found] at there
      cases there
  | some payload' =>
      obtain ⟨inside, _⟩ := List.getElem?_eq_some_iff.mp found
      rw [length_payloads] at inside
      exact inside

theorem backward_nil : Backward [] := by
  intro k node here
  rw [List.getElem?_nil] at here
  cases here

theorem Backward.append (backward : Backward g) (earlier : ∀ i ∈ node.inputs, i < g.length) :
    Backward (g ++ [node]) := by
  intro k other here i input
  rcases Nat.lt_or_ge k g.length with inside | outside
  · rw [List.getElem?_append_left inside] at here
    exact backward k other here i input
  · obtain ⟨less, _⟩ := List.getElem?_eq_some_iff.mp here
    rw [List.length_append, List.length_singleton] at less
    obtain rfl : k = g.length := by omega
    rw [List.getElem?_concat_length] at here
    obtain rfl := Option.some.inj here
    exact earlier i input

theorem Path.append {value : Value} {via : List Node} (path : Path g value via k) (node : Node) :
    Path (g ++ [node]) value via k := by
  have stays : ∀ {k : Nat} {other : Node}, g[k]? = some other → (g ++ [node])[k]? = some other := by
    intro k other here
    rw [List.getElem?_append_left (List.getElem?_eq_some_iff.mp here).1, here]
  induction path with
  | leaf here => exact .leaf (stays here)
  | through path here input ih => exact .through ih (stays here) input

/-- A path to an earlier node does not go through a later one. -/
theorem Path.of_append {value : Value} {via : List Node} (path : Path (g ++ [node]) value via k)
    (backward : Backward g) (inside : k < g.length) : Path g value via k := by
  -- Inputs come before their node, so the induction stays among the earlier ones.
  induction path with
  | leaf here =>
      rw [List.getElem?_append_left inside] at here
      exact .leaf here
  | through path here input ih =>
      rw [List.getElem?_append_left inside] at here
      have less := backward _ _ here _ input
      exact .through (ih (Nat.lt_trans less inside)) here input

theorem path_append_iff {value : Value} {via : List Node} (backward : Backward g)
    (inside : k < g.length) : Path (g ++ [node]) value via k ↔ Path g value via k :=
  ⟨fun path => path.of_append backward inside, fun path => path.append node⟩

/-- A path to the last node goes through it, unless it is a leaf. -/
theorem path_last_iff {value : Value} {via : List Node} (backward : Backward g)
    (earlier : ∀ i ∈ node.inputs, i < g.length) :
    Path (g ++ [node]) value via g.length ↔
      (node = .leaf value ∧ via = []) ∨
        ∃ rest i, via = node :: rest ∧ i ∈ node.inputs ∧ Path g value rest i := by
  have last : (g ++ [node])[g.length]? = some node := List.getElem?_concat_length
  constructor
  · intro path
    cases path with
    | leaf here => exact .inl ⟨Option.some.inj (last.symm.trans here), rfl⟩
    | through path here input =>
        obtain rfl := Option.some.inj (last.symm.trans here)
        exact .inr ⟨_, _, rfl, input, path.of_append backward (earlier _ input)⟩
  · rintro (⟨rfl, rfl⟩ | ⟨rest, i, rfl, input, path⟩)
    · exact .leaf last
    · exact .through (path.append node) last input

/-- What a graph says of a node stays when another node follows. -/
theorem IsValueOf.append (is : IsValueOf engine g k v) (backward : Backward g) (node : Node) :
    IsValueOf engine (g ++ [node]) k v := by
  have inside := lt_of_payloadAt is.payload
  have same : ∀ {value via}, Path (g ++ [node]) value via k ↔ Path g value via k :=
    path_append_iff backward inside
  refine ⟨?_, ?_, ?_, ?_⟩
  · rw [payloadAt_append engine node inside]
    exact is.payload
  · simp only [same]
    exact is.labels
  · simp only [same]
    exact is.attained
  · simp only [same]
    exact is.bounded

theorem IsValueOf.leaf (engine : Engine) (backward : Backward g) (value : Value) :
    IsValueOf engine (g ++ [.leaf value]) g.length value := by
  have paths : ∀ {other via}, Path (g ++ [.leaf value]) other via g.length ↔
      value = other ∧ via = [] := by
    intro other via
    rw [path_last_iff backward fun _ inside => absurd inside List.not_mem_nil]
    constructor
    · rintro (⟨same, rfl⟩ | ⟨_, _, _, inside, _⟩)
      · exact ⟨Node.leaf.inj same, rfl⟩
      · exact absurd inside List.not_mem_nil
    · rintro ⟨rfl, rfl⟩
      exact .inl ⟨rfl, rfl⟩
  refine ⟨payloadAt_last engine g _, ?_, ⟨value, [], paths.mpr ⟨rfl, rfl⟩, rfl⟩, ?_⟩
  · intro label
    constructor
    · intro inside
      exact ⟨value, [], paths.mpr ⟨rfl, rfl⟩, fun _ inNil => absurd inNil List.not_mem_nil, inside⟩
    · rintro ⟨other, via, path, _, inside⟩
      obtain ⟨rfl, _⟩ := paths.mp path
      exact inside
  · intro other via path
    obtain ⟨rfl, rfl⟩ := paths.mp path
    exact Nat.le_refl _

/-! ## Nodes with inputs -/

theorem exists_value {R : Nat → Value → Prop} {inputs : List Nat} {values : List Value}
    (all : List.Forall₂ R inputs values) {i : Nat} (input : i ∈ inputs) : ∃ v ∈ values, R i v := by
  induction all with
  | nil => exact absurd input List.not_mem_nil
  | cons first rest ih =>
      rcases List.mem_cons.mp input with rfl | inRest
      · exact ⟨_, List.mem_cons_self, first⟩
      · obtain ⟨v, inside, related⟩ := ih inRest
        exact ⟨v, List.mem_cons_of_mem _ inside, related⟩

theorem exists_input {R : Nat → Value → Prop} {inputs : List Nat} {values : List Value}
    (all : List.Forall₂ R inputs values) {v : Value} (inside : v ∈ values) :
    ∃ i ∈ inputs, R i v := by
  induction all with
  | nil => exact absurd inside List.not_mem_nil
  | cons first rest ih =>
      rcases List.mem_cons.mp inside with rfl | inRest
      · exact ⟨_, List.mem_cons_self, first⟩
      · obtain ⟨i, input, related⟩ := ih inRest
        exact ⟨i, List.mem_cons_of_mem _ input, related⟩

/-- The inputs of a node have the payloads of their values. -/
theorem mapM_payloads {inputs : List Nat} {values : List Value}
    (all : List.Forall₂ (IsValueOf engine g) inputs values) :
    inputs.mapM (fun i => ((payloads engine g)[i]?).join) = some (values.map Value.payload) := by
  induction all with
  | nil => rfl
  | cons first rest ih =>
      have payload : ((payloads engine g)[_]?).join = some _ := first.payload
      rw [List.mapM_cons, payload, ih]
      rfl

/-- One of several values has travelled furthest. -/
theorem exists_furthest {values : List Value} (some_ : values ≠ []) :
    ∃ v ∈ values, v.hops = Value.furthest values := by
  induction values with
  | nil => exact absurd rfl some_
  | cons v rest ih =>
      have step : Value.furthest (v :: rest) = max v.hops (Value.furthest rest) := rfl
      cases rest with
      | nil => exact ⟨v, List.mem_cons_self, by rw [step]; exact (Nat.max_zero _).symm⟩
      | cons next rest =>
          obtain ⟨u, inside, furthest⟩ := ih (List.cons_ne_nil _ _)
          rcases Nat.le_total v.hops (Value.furthest (next :: rest)) with less | more
          · exact ⟨u, List.mem_cons_of_mem _ inside, by rw [step, Nat.max_eq_right less, furthest]⟩
          · exact ⟨v, List.mem_cons_self, by rw [step, Nat.max_eq_left more]⟩

/-- A node that takes inputs says of a value that it has the payload that the node makes of theirs,
all their labels or none, and is one hop past the furthest. -/
theorem IsValueOf.inner {values : List Value} {output : Value} (backward : Backward g)
    (inner : ∀ value, node ≠ .leaf value)
    (all : List.Forall₂ (IsValueOf engine g) node.inputs values) (some_ : values ≠ [])
    (payload : node.payload? engine (payloads engine g) = some output.payload)
    (labels : output.labels = if node.isLiteral then ∅ else Value.unionLabels values)
    (hops : output.hops = Value.furthest values + 1) :
    IsValueOf engine (g ++ [node]) g.length output := by
  have earlier : ∀ i ∈ node.inputs, i < g.length := by
    intro i input
    obtain ⟨v, _, is⟩ := exists_value all input
    exact lt_of_payloadAt is.payload
  have paths : ∀ {value via}, Path (g ++ [node]) value via g.length ↔
      ∃ rest i, via = node :: rest ∧ i ∈ node.inputs ∧ Path g value rest i := by
    intro value via
    rw [path_last_iff backward earlier]
    exact or_iff_right fun leaf => inner value leaf.1
  refine ⟨?_, ?_, ?_, ?_⟩
  · rw [payloadAt_last, payload]
  · intro label
    rw [labels]
    constructor
    · intro inside
      cases literal : node.isLiteral with
      | true =>
          rw [literal, if_pos rfl] at inside
          exact absurd inside (SortedSet.not_mem_empty label)
      | false =>
          rw [literal, if_neg Bool.false_ne_true, Value.mem_unionLabels] at inside
          obtain ⟨v, inValues, inLabels⟩ := inside
          obtain ⟨i, input, is⟩ := exists_input all inValues
          obtain ⟨value, via, path, whole, inside⟩ := (is.labels label).mp inLabels
          refine ⟨value, node :: via, paths.mpr ⟨via, i, rfl, input, path⟩, ?_, inside⟩
          exact List.forall_mem_cons.mpr ⟨literal, whole⟩
    · rintro ⟨value, _, path, whole, inside⟩
      obtain ⟨via, i, rfl, input, path⟩ := paths.mp path
      obtain ⟨literal, whole⟩ := List.forall_mem_cons.mp whole
      obtain ⟨v, inValues, is⟩ := exists_value all input
      rw [literal, if_neg Bool.false_ne_true, Value.mem_unionLabels]
      exact ⟨v, inValues, (is.labels label).mpr ⟨value, via, path, whole, inside⟩⟩
  · -- The longest way to the node goes through the input that has travelled furthest.
    obtain ⟨v, inValues, furthest⟩ := exists_furthest some_
    obtain ⟨i, input, is⟩ := exists_input all inValues
    obtain ⟨value, via, path, far⟩ := is.attained
    refine ⟨value, node :: via, paths.mpr ⟨via, i, rfl, input, path⟩, ?_⟩
    rw [hops, ← furthest, far, List.length_cons, Nat.add_assoc]
  · intro value _ path
    obtain ⟨via, i, rfl, input, path⟩ := paths.mp path
    obtain ⟨v, inValues, is⟩ := exists_value all input
    have near := is.bounded value via path
    have far := Value.hops_le_furthest inValues
    rw [hops, List.length_cons]
    omega

/-- A value that was written and read again is one hop further on. -/
theorem IsValueOf.kept (is : IsValueOf engine g k v) (backward : Backward g) :
    IsValueOf engine (g ++ [.kept k]) g.length v.forward := by
  refine .inner backward (fun _ => nofun) (.cons is .nil) (List.cons_ne_nil _ _) ?_ ?_ ?_
  · exact is.payload
  · exact (SortedSet.union_empty v.labels).symm
  · exact congrArg (· + 1) (Nat.max_zero v.hops).symm

end Graph

end TaintFlow.Lineage
