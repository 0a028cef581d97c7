import TaintFlow.Catalog
import TaintFlow.Proofs.Chain.Names
import TaintFlow.Proofs.Harness.Operation

/-!
# Definitions stay valid

A chain is checked when it is defined, against registries that go on to grow.
Requests to a harness never take anything out of the registries and never change
what is in them, so what a chain names stays there, and a chain that was accepted
is accepted ever after.  The main statement is `definitions_stay_valid`.
-/

namespace TaintFlow

/-- A network that has grown: whatever was registered is still registered as it was. -/
structure Network.Extends (network larger : Network) : Prop where
  sources : network.sources.Extends larger.sources
  sinks : network.sinks.Extends larger.sinks
  operators : network.engine.operators.Extends larger.engine.operators

namespace Network

variable {network larger : Network}

theorem Extends.refl (network : Network) : network.Extends network :=
  ⟨.refl _, .refl _, .refl _⟩

theorem Extends.trans {largest : Network} (first : network.Extends larger)
    (second : larger.Extends largest) : network.Extends largest :=
  ⟨first.sources.trans second.sources, first.sinks.trans second.sinks,
    first.operators.trans second.operators⟩

theorem Extends.within (grown : network.Extends larger) : Chain.Within network larger where
  sources id there := by
    obtain ⟨s, found⟩ := Assoc.find?_of_has there
    exact Assoc.has_of_find? (grown.sources id s found)
  sinks id there := by
    obtain ⟨s, found⟩ := Assoc.find?_of_has there
    exact Assoc.has_of_find? (grown.sinks id s found)
  operators found := ⟨_, grown.operators _ _ found, rfl⟩

end Network

namespace Harness

variable {h h' : Harness}

/-! ## Requests -/

/-- A request to a harness: to register a component, to define one or more chains, or to run a chain
or use the store. -/
inductive Request where
  | registerSource (draft : SourceDraft) (given : Bool)
  | addSource (draft : SourceDraft)
  | registerSink (draft : SinkDraft) (given : Bool)
  | addSink (draft : SinkDraft)
  | registerRelay (operator : Operator) (arity : Option Int)
  | define (draft : ChainDraft)
  | addChain (c : Chain)
  | registerCatalog (folder : Folder) (path : Path)
  | operate (op : Operation)

/-- The failure of a request, if there is one, and the harness after it. -/
def replied {α : Type} (h : Harness) : Except Failure (α × Harness) → Option Failure × Harness
  | .ok (_, after) => (none, after)
  | .error failure => (some failure, h)

/-- Do what a request asks for. -/
def serve (h : Harness) : Request → Option Failure × Harness
  | .registerSource draft given => h.replied (h.registerSource draft given)
  | .addSource draft => h.replied (h.addSource draft)
  | .registerSink draft given => h.replied (h.registerSink draft given)
  | .addSink draft => h.replied (h.addSink draft)
  | .registerRelay operator arity => h.replied (h.registerRelay operator arity)
  | .define draft => h.replied (h.define draft)
  | .addChain c => h.replied ((h.addChain c).mapError .fault)
  | .registerCatalog folder path =>
    match h.registerCatalog folder path with
    | (.ok _, after) => (none, after)
    | (.error failure, after) => (some failure, after)
  | .operate op =>
    match h.perform op with
    | (.refused failure, after) => (some failure, after)
    | (_, after) => (none, after)

/-- A harness after several requests, one after the other. -/
def served (h : Harness) (requests : List Request) : Harness :=
  requests.foldl (fun h request => (h.serve request).2) h

/-! ## What requests do to what is defined -/

/-- A chain is held under its own id and is accepted. -/
structure Holds (network : Network) (entry : String × Chain) : Prop where
  named : entry.1 = entry.2.id
  valid : entry.2.validate network = .ok ()

/-- Every chain of a harness is held once, under its own id, and is accepted by the registries as
they are. -/
structure Sound (h : Harness) : Prop where
  holds : ∀ entry ∈ h.chains, Holds h.network entry
  once : (Assoc.keys h.chains).Nodup

/-- A harness that has grown: what was registered and defined still is, and what has been defined
since is accepted. -/
structure Grown (h h' : Harness) : Prop where
  network : h.network.Extends h'.network
  chains : h.chains.Extends h'.chains
  added : ∀ entry ∈ h'.chains, entry ∈ h.chains ∨ Holds h'.network entry
  once : (Assoc.keys h.chains).Nodup → (Assoc.keys h'.chains).Nodup

theorem Holds.extends {network larger : Network} {entry : String × Chain}
    (holds : Holds network entry) (grown : network.Extends larger) : Holds larger entry :=
  ⟨holds.named, grown.within.validate holds.valid⟩

namespace Grown

theorem of_same (network : h'.network = h.network) (chains : h'.chains = h.chains) :
    Grown h h' where
  network := network ▸ .refl _
  chains := chains ▸ .refl _
  added _ inside := .inl (chains ▸ inside)
  once once := chains ▸ once

theorem of_network (network : h.network.Extends h'.network) (chains : h'.chains = h.chains) :
    Grown h h' where
  network := network
  chains := chains ▸ .refl _
  added _ inside := .inl (chains ▸ inside)
  once once := chains ▸ once

theorem trans {h'' : Harness} (first : Grown h h') (second : Grown h' h'') : Grown h h'' where
  network := first.network.trans second.network
  chains := first.chains.trans second.chains
  added entry inside := by
    rcases second.added entry inside with earlier | holds
    · rcases first.added entry earlier with before | holds
      · exact .inl before
      · exact .inr (holds.extends second.network)
    · exact .inr holds
  once once := second.once (first.once once)

/-- What was accepted is accepted by registries that have grown. -/
theorem sound (grown : Grown h h') (sound : h.Sound) : h'.Sound where
  holds entry inside := by
    rcases grown.added entry inside with before | holds
    · exact (sound.holds entry before).extends grown.network
    · exact holds
  once := grown.once sound.once

end Grown

open Grown (of_same of_network)

theorem grown_of_addSource {draft : SourceDraft} {s : Source}
    (added : h.addSource draft = .ok (s, h')) : Grown h h' := by
  unfold addSource at added
  obtain ⟨checked, _, added⟩ := Except.bind_eq_ok.mp added
  obtain ⟨sources, put, same⟩ := Except.bind_eq_ok.mp added
  obtain ⟨-, rfl⟩ := Prod.mk.inj (Except.ok.inj same)
  have put := Except.mapError_eq_ok.mp put
  unfold Sources.add at put
  split at put
  · cases put
  · rename_i free
    obtain rfl := Except.ok.inj put
    have extends_ := Assoc.extends_put (Bool.not_eq_true _ ▸ free) checked
    exact .of_network ⟨extends_, .refl _, .refl _⟩ rfl

theorem grown_of_addSink {draft : SinkDraft} {s : Sink}
    (added : h.addSink draft = .ok (s, h')) : Grown h h' := by
  unfold addSink at added
  obtain ⟨checked, _, added⟩ := Except.bind_eq_ok.mp added
  obtain ⟨sinks, put, same⟩ := Except.bind_eq_ok.mp added
  obtain ⟨-, rfl⟩ := Prod.mk.inj (Except.ok.inj same)
  have put := Except.mapError_eq_ok.mp put
  unfold Sinks.add at put
  split at put
  · cases put
  · rename_i free
    obtain rfl := Except.ok.inj put
    have extends_ := Assoc.extends_put (Bool.not_eq_true _ ▸ free) checked
    exact .of_network ⟨.refl _, extends_, .refl _⟩ rfl

theorem grown_of_registerOperator {operator given : Operator}
    (added : h.registerOperator given = .ok (operator, h')) : Grown h h' := by
  unfold registerOperator at added
  obtain ⟨engine, put, same⟩ := Except.bind_eq_ok.mp added
  obtain ⟨-, rfl⟩ := Prod.mk.inj (Except.ok.inj same)
  have put := Except.mapError_eq_ok.mp put
  unfold Engine.add at put
  split at put
  · cases put
  · rename_i free
    obtain rfl := Except.ok.inj put
    have extends_ := Assoc.extends_put (Bool.not_eq_true _ ▸ free) given
    exact .of_network ⟨.refl _, .refl _, extends_⟩ rfl

/-- A chain is defined if its id is free and it is accepted. -/
theorem addChain_eq_ok {c : Chain} {handle : ChainHandle} :
    h.addChain c = .ok (handle, h') ↔ h.chains.has c.id = false ∧
      c.validate h.network = .ok () ∧ handle = c.handle ∧
        h' = { h with chains := h.chains.put c.id c } := by
  unfold addChain
  cases taken : h.chains.has c.id with
  | true => exact ⟨nofun, nofun⟩
  | false =>
      rw [if_neg Bool.false_ne_true, Except.check_eq_ok, Except.pure_eq_ok, Prod.mk.injEq]
      exact ⟨fun both => ⟨rfl, both⟩, And.right⟩

theorem grown_of_addChain {c : Chain} {handle : ChainHandle}
    (added : h.addChain c = .ok (handle, h')) : Grown h h' := by
  obtain ⟨free, valid, _, rfl⟩ := addChain_eq_ok.mp added
  refine ⟨.refl _, Assoc.extends_put free c, fun entry inside => ?_, Assoc.nodup_keys_put⟩
  rcases Assoc.mem_of_mem_put inside with rfl | before
  · exact .inr ⟨rfl, valid⟩
  · exact .inl before

/-- A definition adds the chain that has been read, under an id of its own if none was given. -/
theorem addChain_of_define {draft : ChainDraft} {handle : ChainHandle}
    (defined : h.define draft = .ok (handle, h')) :
    ∃ (h₁ : Harness) (c : Chain), h₁.network = h.network ∧ h₁.chains = h.chains ∧
      h₁.addChain c = .ok (handle, h') := by
  unfold define at defined
  split at defined
  rename_i id h₁ named
  have kept : h₁.network = h.network ∧ h₁.chains = h.chains := by
    split at named
    · obtain ⟨-, rfl⟩ := Prod.mk.inj named
      exact ⟨rfl, rfl⟩
    · obtain ⟨-, rfl⟩ := Prod.mk.inj named
      exact ⟨rfl, rfl⟩
  obtain ⟨_, _, defined⟩ := Except.bind_eq_ok.mp defined
  obtain ⟨_, _, defined⟩ := Except.bind_eq_ok.mp defined
  dsimp only at defined
  split at defined
  · cases defined
  · rename_i c _
    exact ⟨h₁, c, kept.1, kept.2, Except.mapError_eq_ok.mp defined⟩

theorem grown_of_define {draft : ChainDraft} {handle : ChainHandle}
    (defined : h.define draft = .ok (handle, h')) : Grown h h' := by
  obtain ⟨h₁, c, network, chains, added⟩ := addChain_of_define defined
  exact (of_same network chains).trans (grown_of_addChain added)

/-- Defining several chains leaves the registries alone, also if it stops before the last. -/
theorem grown_addChains (h : Harness) (chains : List Chain) :
    Grown h (h.addChains chains).2.1 ∧ (h.addChains chains).2.1.network = h.network := by
  induction chains generalizing h with
  | nil => exact ⟨of_same rfl rfl, rfl⟩
  | cons c rest ih =>
      unfold addChains
      cases added : h.addChain c with
      | error fault => exact ⟨of_same rfl rfl, rfl⟩
      | ok pair =>
          obtain ⟨handle, h₁⟩ := pair
          obtain ⟨grown, same⟩ := ih h₁
          have network : h₁.network = h.network := by
            obtain ⟨_, _, _, rfl⟩ := addChain_eq_ok.mp added
            rfl
          exact ⟨(grown_of_addChain added).trans grown, same.trans network⟩

/-- Defining several chains stops at the one that cannot be defined, and leaves what those before
it have come to. -/
theorem addChains_failed {chains : List Chain} {fault : Fault}
    (failed : (h.addChains chains).2.2 = some fault) :
    ∃ earlier c later, chains = earlier ++ c :: later ∧
      (h.addChains chains).2.1 = h.served (earlier.map .addChain) ∧
      (h.served (earlier.map .addChain)).addChain c = .error fault := by
  induction chains generalizing h with
  | nil => cases failed
  | cons first rest ih =>
      unfold addChains at failed ⊢
      cases added : h.addChain first with
      | error cause =>
          rw [added] at failed
          obtain rfl := Option.some.inj failed
          exact ⟨[], first, rest, rfl, rfl, added⟩
      | ok pair =>
          obtain ⟨handle, h₁⟩ := pair
          rw [added] at failed
          obtain ⟨earlier, c, later, rfl, left, stopped⟩ := ih failed
          have served : h.served ((first :: earlier).map .addChain) =
              h₁.served (earlier.map .addChain) := by
            simp only [Harness.served, List.map_cons, List.foldl_cons, serve, added]
            rfl
          exact ⟨first :: earlier, c, later, rfl, left.trans served.symm, served ▸ stopped⟩

theorem grown_registerCatalog (h : Harness) (folder : Folder) (path : Path) :
    Grown h (h.registerCatalog folder path).2 ∧
      (h.registerCatalog folder path).2.network = h.network := by
  unfold registerCatalog
  cases Catalog.load folder path with
  | error failure => exact ⟨of_same rfl rfl, rfl⟩
  | ok chains =>
      have grown := h.grown_addChains chains
      dsimp only
      split
      · rename_i same
        rw [same] at grown
        exact grown
      · rename_i same
        rw [same] at grown
        exact grown

/-- A harness that has the registries and the chains of another. -/
def Keeps (h h' : Harness) : Prop := h'.network = h.network ∧ h'.chains = h.chains

theorem keeps_settle {α : Type} {result : α → Operation.Result}
    {given : Except Failure (α × Harness)}
    (kept : ∀ {a after}, given = .ok (a, after) → h.Keeps after) :
    h.Keeps (h.settle result given).2 := by
  cases given with
  | error failure => exact ⟨rfl, rfl⟩
  | ok pair => exact kept rfl

theorem keeps_attempted_execute (h : Harness) (r : Run) :
    h.Keeps (attempted (h.execute r).1).2 := by
  unfold execute
  split
  · exact ⟨rfl, rfl⟩
  · exact ⟨rfl, rfl⟩
  · exact ⟨rfl, rfl⟩

/-- Runs and the store leave registries and chains alone. -/
theorem keeps_perform (h : Harness) (op : Operation) : h.Keeps (h.perform op).2 := by
  cases op with
  | run chain scopes context timeout =>
      show h.Keeps (attempted (h.runChain chain scopes context timeout)).2
      unfold runChain
      rw [newRun_eq]
      cases h.getChain chain with
      | error fault => exact ⟨rfl, rfl⟩
      | ok c =>
          dsimp only
          cases requireSession c scopes with
          | error mishap => exact ⟨rfl, rfl⟩
          | ok _ => exact keeps_attempted_execute h.issuing _
  | endSession session =>
      refine keeps_settle fun ended => ?_
      obtain ⟨_, _, same⟩ := Except.bind_eq_ok.mp (Except.mapError_eq_ok.mp ended)
      obtain ⟨-, rfl⟩ := Prod.mk.inj (Except.ok.inj same)
      exact ⟨rfl, rfl⟩
  | put scope key value id writtenAt =>
      refine keeps_settle fun stored => ?_
      obtain ⟨_, _, stored⟩ := Except.bind_eq_ok.mp stored
      obtain ⟨_, _, same⟩ := Except.bind_eq_ok.mp stored
      obtain ⟨-, rfl⟩ := Prod.mk.inj (Except.ok.inj same)
      exact ⟨rfl, rfl⟩
  | clear scope key id =>
      refine keeps_settle fun cleared => ?_
      obtain ⟨_, _, same⟩ := Except.bind_eq_ok.mp (Except.mapError_eq_ok.mp cleared)
      obtain ⟨-, rfl⟩ := Prod.mk.inj (Except.ok.inj same)
      exact ⟨rfl, rfl⟩
  | clearScope scope id =>
      refine keeps_settle fun cleared => ?_
      obtain ⟨_, _, same⟩ := Except.bind_eq_ok.mp (Except.mapError_eq_ok.mp cleared)
      obtain ⟨-, rfl⟩ := Prod.mk.inj (Except.ok.inj same)
      exact ⟨rfl, rfl⟩
  | release scope id =>
      refine keeps_settle fun released => ?_
      have released := Except.mapError_eq_ok.mp released
      cases place : partitionOf scope id with
      | error mishap => simp [release, place, bind, Except.bind, Except.map] at released
      | ok p =>
          simp [release, place, bind, Except.bind, Except.map, pure, Except.pure] at released
          rw [← released]
          exact ⟨rfl, rfl⟩

/-- A failure that comes in reply to a request leaves the harness as it was. -/
theorem keeps_replied {α : Type} {given : Except Failure (α × Harness)} {failure : Failure}
    (failed : (h.replied given).1 = some failure) : h.Keeps (h.replied given).2 := by
  cases given with
  | error _ => exact ⟨rfl, rfl⟩
  | ok pair => cases failed

theorem grown_replied {α : Type} {given : Except Failure (α × Harness)}
    (grown : ∀ {a after}, given = .ok (a, after) → Grown h after) :
    Grown h (h.replied given).2 := by
  cases given with
  | error failure => exact of_same rfl rfl
  | ok pair => exact grown rfl

theorem serve_operate (h : Harness) (op : Operation) :
    (h.serve (.operate op)).2 = (h.perform op).2 := by
  unfold serve
  dsimp only
  split
  · rename_i same
    rw [same]
  · rename_i same
    rw [same]

theorem serve_registerCatalog (h : Harness) (folder : Folder) (path : Path) :
    (h.serve (.registerCatalog folder path)).2 = (h.registerCatalog folder path).2 := by
  unfold serve
  dsimp only
  split
  · rename_i same
    rw [same]
  · rename_i same
    rw [same]

/-- A request that fails leaves the registries alone, and the chains too unless it is to define
several. -/
theorem serve_failed (h : Harness) (request : Request) {failure : Failure}
    (failed : (h.serve request).1 = some failure) :
    (h.serve request).2.network = h.network ∧
      ((∀ folder path, request ≠ .registerCatalog folder path) →
        (h.serve request).2.chains = h.chains) := by
  have both : ∀ {after : Harness}, h.Keeps after → after.network = h.network ∧
      ((∀ folder path, request ≠ .registerCatalog folder path) → after.chains = h.chains) :=
    fun kept => ⟨kept.1, fun _ => kept.2⟩
  cases request with
  | registerSource draft given => exact both (keeps_replied failed)
  | addSource draft => exact both (keeps_replied failed)
  | registerSink draft given => exact both (keeps_replied failed)
  | addSink draft => exact both (keeps_replied failed)
  | registerRelay operator arity => exact both (keeps_replied failed)
  | define draft => exact both (keeps_replied failed)
  | addChain c => exact both (keeps_replied failed)
  | registerCatalog folder path =>
      rw [serve_registerCatalog]
      exact ⟨(h.grown_registerCatalog folder path).2, fun other => absurd rfl (other folder path)⟩
  | operate op =>
      rw [serve_operate]
      exact both (h.keeps_perform op)

/-- A catalog that cannot be read defines nothing.  One with a chain that cannot be defined leaves
what the chains before it come to one by one, which the failure itself does not change. -/
theorem serve_registerCatalog_failed (h : Harness) (folder : Folder) (path : Path)
    {failure : Failure} (failed : (h.serve (.registerCatalog folder path)).1 = some failure) :
    let after := (h.serve (.registerCatalog folder path)).2
    Catalog.load folder path = .error failure ∧ after = h ∨
      ∃ earlier c later, Catalog.load folder path = .ok (earlier ++ c :: later) ∧
        after = h.served (earlier.map .addChain) ∧
        after.serve (.addChain c) = (some failure, after) := by
  intro after
  have left : after = (h.registerCatalog folder path).2 := h.serve_registerCatalog folder path
  unfold serve at failed
  dsimp only at failed
  unfold registerCatalog at failed left
  cases load : Catalog.load folder path with
  | error cause =>
      rw [load] at failed left
      obtain rfl := Option.some.inj failed
      exact .inl ⟨rfl, left⟩
  | ok chains =>
      rw [load] at failed left
      dsimp only at failed left
      rcases all : h.addChains chains with ⟨handles, h₁, stopped⟩
      rw [all] at failed left
      cases stopped with
      | none => cases failed
      | some fault =>
          obtain rfl := Option.some.inj failed
          have failed : (h.addChains chains).2.2 = some fault := congrArg (·.2.2) all
          obtain ⟨earlier, c, later, rfl, before, refused⟩ := addChains_failed failed
          rw [all] at before
          obtain rfl : h₁ = h.served (earlier.map .addChain) := before
          refine .inr ⟨earlier, c, later, rfl, left, ?_⟩
          rw [left]
          simp only [serve, refused]
          rfl

/-- Every request leaves what is registered and defined as it is, and adds only chains that are
accepted. -/
theorem grown_serve (h : Harness) (request : Request) : Grown h (h.serve request).2 := by
  cases request with
  | registerSource draft given =>
      refine grown_replied fun registered => ?_
      unfold registerSource at registered
      split at registered
      · cases registered
      · exact grown_of_addSource registered
  | addSource draft => exact grown_replied grown_of_addSource
  | registerSink draft given =>
      refine grown_replied fun registered => ?_
      unfold registerSink at registered
      split at registered
      · cases registered
      · obtain ⟨_, _, registered⟩ := Except.bind_eq_ok.mp registered
        exact grown_of_addSink registered
  | addSink draft => exact grown_replied grown_of_addSink
  | registerRelay operator arity =>
      refine grown_replied fun registered => ?_
      obtain ⟨_, _, registered⟩ := Except.bind_eq_ok.mp registered
      exact grown_of_registerOperator registered
  | define draft => exact grown_replied grown_of_define
  | addChain c =>
      exact grown_replied fun added => grown_of_addChain (Except.mapError_eq_ok.mp added)
  | registerCatalog folder path =>
      rw [serve_registerCatalog]
      exact (h.grown_registerCatalog folder path).1
  | operate op =>
      rw [serve_operate]
      exact of_same (h.keeps_perform op).1 (h.keeps_perform op).2

theorem grown_served (h : Harness) (requests : List Request) : Grown h (h.served requests) := by
  induction requests generalizing h with
  | nil => exact of_same rfl rfl
  | cons request rest ih => exact (h.grown_serve request).trans (ih _)

/-! ## Ground truth -/

theorem mem_listChains {category : Option SinkCategory} {c : Chain}
    (inside : c ∈ h.listChains category) : ∃ id, (id, c) ∈ h.chains := by
  have sorted : c ∈ (h.chains.map Prod.snd).mergeSort fun a b => !decide (b.id < a.id) := by
    unfold listChains at inside
    cases category with
    | none => exact inside
    | some wanted => exact (List.mem_filter.mp inside).1
  obtain ⟨⟨id, _⟩, there, rfl⟩ := List.mem_map.mp (List.mem_mergeSort.mp sorted)
  exact ⟨id, there⟩

/-- There is a truth about every chain whose components can be looked up. -/
theorem exists_truthOf {c : Chain} (registered : c.Registered h.network) :
    ∃ truth, h.truthOf c = .ok truth := by
  obtain ⟨sources, asked⟩ : ∃ sources, (c.sources.mapM fun id => do
      return (id, (← h.network.sources.get id).category) : Except Fault _) = .ok sources := by
    refine Except.exists_mapM_eq_ok.mpr fun id inside => ?_
    obtain ⟨s, got⟩ := registered.sources id inside
    exact ⟨_, Except.bind_eq_ok.mpr ⟨s, got, rfl⟩⟩
  obtain ⟨sinks, told⟩ : ∃ sinks, (c.sinks.mapM fun id => do
      return (id, (← h.network.sinks.get id).categories) : Except Fault _) = .ok sinks := by
    refine Except.exists_mapM_eq_ok.mpr fun id inside => ?_
    obtain ⟨s, got⟩ := registered.sinks id inside
    exact ⟨_, Except.bind_eq_ok.mpr ⟨s, got, rfl⟩⟩
  exact ⟨_, Except.bind_eq_ok.mpr ⟨sources, asked, Except.bind_eq_ok.mpr ⟨sinks, told, rfl⟩⟩⟩

theorem Sound.groundTruth (sound : h.Sound) (category : Option SinkCategory) :
    ∃ truths, h.groundTruth category = .ok truths := by
  refine Except.exists_mapM_eq_ok.mpr fun c inside => ?_
  obtain ⟨id, there⟩ := mem_listChains inside
  exact exists_truthOf (Chain.registered_of_valid (sound.holds (id, c) there).valid)

/-- A harness that has served requests from its start on is sound. -/
theorem sound_served (config : HarnessConfig) (requests : List Request) :
    ((empty config).served requests).Sound :=
  ((empty config).grown_served requests).sound
    ⟨fun _ inside => absurd inside List.not_mem_nil, .nil⟩

/-- **Definitions stay valid.**  Whatever a harness has been asked for from its start on, whether it
failed or not: its chains are accepted by its registries as they are, every component that they name
can be looked up, and there is a ground truth for every category.  Whatever it is asked for next, a
failure leaves the registries as they are, and also the chains unless several were to be defined.
Then the one that could not be defined leaves the chains as they were before it. -/
theorem definitions_stay_valid (config : HarnessConfig) (requests : List Request) :
    let h := (empty config).served requests
    (∀ id c, (id, c) ∈ h.chains → c.validate h.network = .ok () ∧ c.Registered h.network) ∧
      (∀ category, ∃ truths, h.groundTruth category = .ok truths) ∧
      (∀ request failure, (h.serve request).1 = some failure →
        (h.serve request).2.network = h.network ∧
          ((∀ folder path, request ≠ .registerCatalog folder path) →
            (h.serve request).2.chains = h.chains)) ∧
      ∀ folder path failure, (h.serve (.registerCatalog folder path)).1 = some failure →
        let after := (h.serve (.registerCatalog folder path)).2
        Catalog.load folder path = .error failure ∧ after = h ∨
          ∃ earlier c later, Catalog.load folder path = .ok (earlier ++ c :: later) ∧
            after = h.served (earlier.map .addChain) ∧
            after.serve (.addChain c) = (some failure, after) := by
  intro h
  have sound : h.Sound := sound_served config requests
  refine ⟨fun id c inside => ?_, sound.groundTruth, fun request _ => h.serve_failed request,
    fun folder path _ => h.serve_registerCatalog_failed folder path⟩
  have valid := (sound.holds (id, c) inside).valid
  exact ⟨valid, Chain.registered_of_valid valid⟩

/-- Requests to register a source and a sink and to define the chain from the one to the other. -/
def defining : List Request :=
  [.addSource { id := .text "form", category := .text "http_body"
                provider := .component (contextField "body" .null) },
   .addSink { id := .text "shell", categories := .list [.text "command"]
              provider := .component (recording "shell" none) },
   .addChain Run.direct]

/-- The chain is held and accepted, there is a ground truth, and defining it again fails and leaves
it alone. -/
theorem definitions_stay_valid_direct :
    ("direct", Run.direct) ∈ ((empty {}).served defining).chains ∧
      Run.direct.validate ((empty {}).served defining).network = .ok () ∧
      (∃ truths, ((empty {}).served defining).groundTruth none = .ok truths) ∧
      (((empty {}).served defining).serve (.addChain Run.direct)).1 =
        some (.fault ⟨.duplicate .chain "direct", none⟩) ∧
      (((empty {}).served defining).serve (.addChain Run.direct)).2.chains =
        ((empty {}).served defining).chains := by
  obtain ⟨valid, truths, failures, _⟩ := definitions_stay_valid {} defining
  have held : ("direct", Run.direct) ∈ ((empty {}).served defining).chains :=
    List.mem_singleton.mpr rfl
  have failed : (((empty {}).served defining).serve (.addChain Run.direct)).1 =
      some (.fault ⟨.duplicate .chain "direct", none⟩) := rfl
  exact ⟨held, (valid _ _ held).1, truths none, failed, (failures _ _ failed).2 nofun⟩

end Harness

end TaintFlow
