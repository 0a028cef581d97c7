import TaintFlow.Proofs.Provenance.Sketch
import TaintFlow.Proofs.Run.Account
import TaintFlow.Proofs.Run.Coverage
import TaintFlow.Proofs.Run.Turns

/-!
# Runs are like their sketches

Operators that see payloads only, or that hand whole values over a boundary, have
no say in where values come from.  A run of a chain that applies no others, and
that nobody disturbs, is at each step like the sketch of it: `Account.resembles`.
What it writes down of its steps is what the sketch shows of them, and how it ends
at its last sinks is what the sketch tells.
-/

namespace TaintFlow

/-! ## Operators that have no say -/

/-- An operator that has no say in where values come from: its function sees payloads only and
leaves the store alone, or it hands a value over a boundary. -/
def Operator.IsBlind (operator : Operator) : Prop :=
  operator.lifted = true ∧ (∀ inputs params store, (operator.call inputs params store).edits = []) ∨
    operator ∈ Boundary.operators

/-- A chain that applies no other operators. -/
def Chain.IsBlind (network : Network) (c : Chain) : Prop :=
  ∀ id ∈ c.operators, ∀ operator, network.engine.operators.find? id = some operator →
    operator.IsBlind

theorem Chain.IsBlind.untouching {network : Network} {c : Chain} (blind : c.IsBlind network) :
    Run.Untouching network.engine c := by
  intro id inside operator found
  rcases blind id inside operator found with ⟨_, edits⟩ | boundary
  · exact edits
  · exact (Boundary.isTransparent_of_mem boundary).edits

/-- The output of such an operator has the labels of its inputs or none. -/
theorem Engine.Makes.labels_of_isBlind {engine : Engine} {inputs : List Value} {params : Params}
    {store : Store} {operator : Operator} {output : Value}
    (made : engine.Makes inputs params store operator output) (blind : operator.IsBlind) :
    output.labels = if operator.preserving then Value.unionLabels inputs else ∅ := by
  rcases blind with ⟨lifted, _⟩ | boundary
  · obtain ⟨_, _, payload, labelled, _, _, _, _, label, rfl⟩ := made.answer
    rw [Operator.label_of_lifted lifted] at label
    obtain rfl := Except.ok.inj label
    cases operator.preserving <;> rfl
  · exact (made.carries (Boundary.isTransparent_of_mem boundary)).1

theorem Network.given_of_gave {network : Network} {w w' : World} {at_ : World.Location}
    {id : String} {context : Payload} {timeout : Option Timeout} {value : Value}
    (gave : w.callSource network at_ id context timeout = (some (.ok value), w')) :
    value.outline = network.given id := by
  obtain ⟨_, _, found, rfl⟩ := World.callSource_eq_ok gave
  unfold Network.given
  rw [found]
  rfl

theorem Network.made_of_applied {network : Network} {w w' : World} {at_ : World.Location}
    {id : String} {inputs : List Value} {params : Params} {step : Option Int} {output : Value}
    (blind : ∀ operator, network.engine.operators.find? id = some operator → operator.IsBlind)
    (applied : w.applyOperator network at_ id inputs params step = (some (.ok output), w')) :
    output.outline = network.made id (inputs.map Value.outline) := by
  have outcome := World.applyOperator_outcome w network at_ id inputs params step
  rw [applied] at outcome
  obtain ⟨operator, found, made⟩ := Engine.apply_eq_ok.mp outcome.symm
  have labels := made.labels_of_isBlind (blind operator found)
  have hops := made.hops
  unfold Network.made
  rw [found, Option.map_some, Value.unionLabels_map_outline, Value.furthest_map_outline, ← hops]
  show ({ labels := output.labels, hops := output.hops } : Value) = _
  rw [labels]
  cases operator.preserving <;> rfl

namespace Run

variable {network : Network} {rely : World → World → Prop} {w w' : World} {r r' : Run}
  {sk : Sketch} {step : Step}

/-! ## Likeness -/

/-- A run and the store are like a sketch of the run, and what a merge has gathered is like the
first of the inputs that the sketch has for it. -/
structure Resembles (network : Network) (w : World) (r : Run) (sk : Sketch) : Prop where
  stack : r.stack.map Value.outline = sk.stack
  kept : w.store.outline? = sk.kept
  gathered : ∀ {sources loads id params},
    r.chain.steps[r.next]? = some (.merge sources loads id params) →
      r.gathered.map Value.outline =
        (sk.inputs network r.scopes sources loads).take r.gathered.length
  origins : r.origins = sk.origins ∪ Value.unionLabels r.gathered

/-- Where nothing is gathered, only the active values and the origins count. -/
theorem Resembles.of_nil (stack : r.stack.map Value.outline = sk.stack)
    (kept : w.store.outline? = sk.kept) (origins : r.origins = sk.origins) (nil : r.gathered = []) :
    Resembles network w r sk where
  stack := stack
  kept := kept
  gathered _ := by
    rw [nil]
    rfl
  origins := by rw [nil, Value.unionLabels_nil, SortedSet.union_empty, origins]

theorem Resembles.origins_of_nil (resembles : Resembles network w r sk) (nil : r.gathered = []) :
    r.origins = sk.origins := by
  rw [resembles.origins, nil, Value.unionLabels_nil, SortedSet.union_empty]

theorem Resembles.length (resembles : Resembles network w r sk) :
    sk.stack.length = r.stack.length := by
  rw [← resembles.stack, List.length_map]

theorem Resembles.youngest (resembles : Resembles network w r sk) (count : Nat) :
    (r.youngest count).map Value.outline = sk.stack.drop (sk.stack.length - count) := by
  unfold Run.youngest
  rw [List.map_drop, resembles.stack, resembles.length]

theorem Resembles.top (resembles : Resembles network w r sk) {value : Value}
    (top : r.top? = some value) : sk.top = value.outline := by
  have found : r.stack.getLast? = some value := top
  unfold Sketch.top
  rw [← resembles.stack, List.getLast?_map, found]
  rfl

/-- What a run reads is what is kept for it in the sketch. -/
theorem Resembles.read (resembles : Resembles network w r sk) {origin : StoreRef} {value : Value}
    (lives : Lives r.scopes w.store origin value) : sk.read r.scopes origin = value.outline := by
  obtain ⟨p, writtenAt, place, live⟩ := lives
  unfold Sketch.read
  rw [place, ← resembles.kept]
  show (w.store.outline? p origin.key).getD {} = value.outline
  unfold Store.outline?
  rw [live]
  rfl

/-- The inputs of a merge are like those of the sketch, and their labels have all entered. -/
theorem Resembles.inputs {sources : List String} {loads : List StoreRef} {id : String}
    {params : Params} {inputs : List Value} {r₁ : Run} (resembles : Resembles network w r sk)
    (gathers : Gathers network r)
    (here : r.chain.steps[r.next]? = some (.merge sources loads id params))
    (asked : sources[r.gathered.length]? = none)
    (read : mergeInputs network w.store r loads = .ok (inputs, r₁)) :
    inputs.map Value.outline = sk.inputs network r.scopes sources loads ∧
      r.origins ∪ entrants (pendingReadings network w.store r loads) =
        sk.origins ∪ Value.unionLabels inputs := by
  have entered : r.origins ∪ entrants (pendingReadings network w.store r loads) =
      sk.origins ∪ Value.unionLabels inputs := by
    refine SortedSet.ext fun label => ?_
    rw [resembles.origins, SortedSet.mem_union, SortedSet.mem_union, SortedSet.mem_union,
      mem_unionLabels_inputs read, or_assoc]
  refine ⟨?_, entered⟩
  obtain ⟨found, rfl, live, _, none, _⟩ := mergeInputs_eq_ok read
  obtain ⟨_, open_, closed⟩ := gathers.merge here
  rw [List.map_append, resembles.gathered here]
  cases loaded : r.loaded with
  | true =>
      rw [none loaded, closed loaded, List.map_nil, List.append_nil]
      refine List.take_of_length_le (Nat.le_of_eq ?_)
      rw [Sketch.inputs, List.length_append, List.length_map, List.length_map]
  | false =>
      have each : List.Forall₂ (· = ·) (loads.map (sk.read r.scopes))
          (found.map Value.outline) :=
        List.forall₂_map_left_iff.mpr
          (List.forall₂_map_right_iff.mpr ((live loaded).imp fun _ _ => resembles.read))
      rw [List.forall₂_eq_eq_eq] at each
      have all := Nat.le_antisymm (open_ loaded) (List.getElem?_eq_none_iff.mp asked)
      rw [← each, all, Sketch.inputs, List.take_left' (List.length_map _)]

/-! ## Steps -/

/-- What an entry of a trace shows of a value and of its labels. -/
def Tells (entry : StepTrace) (value : Value) (outcome : HopOutcome) : Prop :=
  entry.labels = value.labels ∧ entry.hops = value.hops ∧ entry.outcome = outcome

/-- A run has come to what a step makes of its sketch, and has written down what the sketch shows,
in one more entry. -/
structure Leads (network : Network) (w' : World) (r r' : Run) (hop : Sketch × Value × HopOutcome) :
    Prop where
  resembles : Resembles network w' r' hop.1
  shown : ∃ entry, r'.result.trace = r.result.trace ++ [entry] ∧ Tells entry hop.2.1 hop.2.2

theorem Leads.of_passOn {after : Run} {entry : StepTrace} {hop : Sketch × Value × HopOutcome}
    (trace : after.result.trace = r.result.trace) (tells : Tells entry hop.2.1 hop.2.2)
    (stack : after.stack.map Value.outline = hop.1.stack)
    (kept : w'.store.outline? = hop.1.kept) (origins : after.origins = hop.1.origins)
    (nil : after.gathered = []) : Leads network w' r (after.passOn entry) hop where
  resembles := .of_nil stack kept origins nil
  shown := ⟨entry, (passOn_trace after entry).trans (congrArg (· ++ [entry]) trace), tells⟩

/-- A step whose entry shows the youngest of the active values. -/
theorem Leads.of_shown {after : Run} {older : List Value} {value : Value} {outcome : HopOutcome}
    {sk' : Sketch} (trace : after.result.trace = r.result.trace)
    (stack : after.stack = older ++ [value])
    (like : sk'.stack = older.map Value.outline ++ [value.outline])
    (kept : w'.store.outline? = sk'.kept) (origins : after.origins = sk'.origins)
    (nil : after.gathered = []) :
    Leads network w' r (after.shown step outcome) (sk', value.outline, outcome) := by
  have top : after.top? = some value := by
    unfold top?
    rw [stack]
    exact List.getLast?_concat
  refine .of_passOn trace ⟨?_, ?_, rfl⟩ ?_ kept origins nil
  · show (after.top?.map Value.labels).getD ∅ = value.labels
    rw [top]
    rfl
  · show (after.top?.map Value.hops).getD 0 = value.hops
    rw [top]
    rfl
  · rw [stack, like, List.map_append]
    rfl

/-- A value that has entered a run is in the sketch if its outline is. -/
theorem Resembles.enter {value : Value} (resembles : Resembles network w r sk)
    (nil : r.gathered = []) (store : w'.store = w.store) {outcome : HopOutcome} :
    Leads network w' r (((r.entered value.labels).push value).shown step outcome)
      (sk.enter value.outline, value.outline, outcome) := by
  refine .of_shown rfl rfl ?_ ?_ ?_ nil
  · exact congrArg (· ++ [value.outline]) resembles.stack.symm
  · rw [store]
    exact resembles.kept
  · exact congrArg (· ∪ value.labels) (resembles.origins_of_nil nil)

/-- What is written is kept in the sketch. -/
theorem Resembles.keep {target : StoreRef} {value : Value} {p : Partition} {writtenAt : Int}
    (resembles : Resembles network w r sk)
    (place : target.scope.partition (r.scopes.idFor target.scope) = .ok p)
    (store : w'.store = w.store.write p target.key value writtenAt) :
    w'.store.outline? = (sk.keep r.scopes target value.outline).kept := by
  funext q key
  rw [store, Store.outline?_write, Sketch.keep, place, resembles.kept]

theorem keep_stack (scopes : RunScopes) (sk : Sketch) (target : StoreRef) (value : Value) :
    (sk.keep scopes target value).stack = sk.stack ∧
      (sk.keep scopes target value).origins = sk.origins := by
  unfold Sketch.keep
  split
  · exact ⟨rfl, rfl⟩
  · exact ⟨rfl, rfl⟩

/-- A step that was done leads to what it makes of the sketch. -/
theorem Resembles.passes (resembles : Resembles network w r sk) (gathers : Gathers network r)
    (blind : r.chain.IsBlind network) (here : r.chain.steps[r.next]? = some step)
    (deed : Deed network w r w' r') (passes : Passes network w r r')
    (after : r'.state = .running) : Leads network w' r r' (sk.pass network r.scopes step) := by
  have same : ∀ {other}, r.chain.steps[r.next]? = some other → other = step :=
    fun here' => Option.some.inj (here'.symm.trans here)
  have still := deed.store_eq blind.untouching after here
  cases deed with
  | @took id value w₁ here' gave =>
      obtain rfl := same here'
      obtain ⟨nil, _⟩ := gathers.nil_of_other here nofun
      show Leads network _ r _ (sk.enter (network.given id), network.given id, .introduced)
      rw [← Network.given_of_gave gave]
      exact resembles.enter nil (still nofun)
  | @relayed id params operator count output w₁ here' found taken some_ enough applied =>
      obtain rfl := same here'
      obtain ⟨nil, _⟩ := gathers.nil_of_other here nofun
      have inside : id ∈ r.chain.operators := Chain.mem_operators here rfl
      have like := Network.made_of_applied (blind id inside) applied
      have held : network.taken id sk.stack.length = count := by
        unfold Network.taken
        rw [found, resembles.length, taken]
        rfl
      unfold Sketch.pass
      dsimp only
      rw [held, ← resembles.youngest, ← like, classify_outline]
      refine .of_shown rfl rfl ?_ ?_ (resembles.origins_of_nil nil) nil
      · rw [List.map_take, resembles.stack, resembles.length]
      · rw [still nofun]
        exact resembles.kept
  | @stored target value p here' top place =>
      obtain rfl := same here'
      obtain ⟨nil, _⟩ := gathers.nil_of_other here nofun
      obtain ⟨stack, origins⟩ := keep_stack r.scopes sk target value.forward.outline
      have written : ((w.edit r.location (.put p target.key value.forward
          value.forward.hops)).count (.steps .store)).store =
            w.store.write p target.key value.forward value.forward.hops := by
        rw [World.count_store, World.edit_store]
        rfl
      show Leads network _ r _ (sk.keep r.scopes target sk.top.forward, sk.top.forward, .preserved)
      rw [resembles.top top, ← Value.outline_forward]
      refine .of_passOn rfl ⟨rfl, rfl, rfl⟩ ?_ (resembles.keep place written) ?_ nil
      · rw [stack]
        exact resembles.stack
      · rw [origins]
        exact resembles.origins_of_nil nil
  | @loaded origin value here' read =>
      obtain rfl := same here'
      obtain ⟨nil, _⟩ := gathers.nil_of_other here nofun
      show Leads network _ r _
        (sk.enter (sk.read r.scopes origin), sk.read r.scopes origin, .introduced)
      rw [resembles.read (load_eq_ok read).2]
      exact resembles.enter nil (still nofun)
  | @merged sources loads id params inputs output r₁ w₁ here' asked read applied =>
      obtain rfl := same here'
      obtain ⟨likes, entered⟩ := resembles.inputs gathers here asked read
      have inside : id ∈ r.chain.operators := Chain.mem_operators here rfl
      have like := Network.made_of_applied (blind id inside) applied
      unfold Sketch.pass
      dsimp only
      rw [← likes, ← like, classify_outline, Value.unionLabels_map_outline, ← entered]
      refine .of_shown rfl rfl ?_ ?_ rfl rfl
      · exact congrArg (· ++ [output.outline]) resembles.stack.symm
      · rw [still nofun]
        exact resembles.kept
  | @handedOn sinks value outcomes results w₁ here' onTheWay top =>
      obtain rfl := same here'
      obtain ⟨nil, _⟩ := gathers.nil_of_other here nofun
      show Leads network _ r _ (sk, sk.top.forward, .preserved)
      rw [resembles.top top]
      refine .of_passOn rfl ⟨rfl, rfl, rfl⟩ resembles.stack ?_ (resembles.origins_of_nil nil) nil
      rw [still nofun]
      exact resembles.kept
  | gathered collects => exact absurd collects.next passes.next_ne
  | judged judges => exact absurd judges.next passes.next_ne
  | ended ends => exact absurd ends.next passes.next_ne

/-- So does an input of a merge that a source has given. -/
theorem Resembles.collects {id : String} {value : Value} (resembles : Resembles network w r sk)
    (collects : Collects network w r id value w' r') : Resembles network w' r' sk := by
  obtain ⟨sources, loads, operator, params, here, asked, gave⟩ := collects.asked
  obtain rfl := collects.same
  refine ⟨resembles.stack, ?_, ?_, ?_⟩
  · rw [World.store_of_callSource gave]
    exact resembles.kept
  · intro sources' loads' operator' params' here'
    obtain ⟨rfl, rfl, rfl, rfl⟩ := Step.merge.inj (Option.some.inj (here.symm.trans here'))
    have next : (sk.inputs network r.scopes sources loads)[r.gathered.length]? =
        some value.outline := by
      have less := (List.getElem?_eq_some_iff.mp asked).1
      unfold Sketch.inputs
      rw [List.getElem?_append_left (by rw [List.length_map]; exact less), List.getElem?_map, asked]
      exact congrArg some (Network.given_of_gave gave).symm
    show (r.gathered ++ [value]).map Value.outline =
      (sk.inputs network r.scopes sources loads).take (r.gathered ++ [value]).length
    rw [List.map_append, resembles.gathered here, List.length_append, List.length_singleton,
      List.take_add_one, next]
    rfl
  · show r.origins ∪ value.labels = sk.origins ∪ Value.unionLabels (r.gathered ++ [value])
    rw [resembles.origins, Value.unionLabels_append, SortedSet.union_assoc]
    exact congrArg (fun labels => sk.origins ∪ (_ ∪ labels)) (SortedSet.union_empty _).symm

/-- Nothing else that a run does on its way makes a difference. -/
theorem Resembles.of_move (resembles : Resembles network w r sk)
    (gathers : r.state = .running → Gathers network r) (move : Move network w r w' r')
    (noTurn : advance network w r ≠ some (w', r')) (going : r.state.isTerminal = false) :
    Resembles network w' r' sk := by
  cases move with
  | begins begun =>
      have store : w'.store = w.store := by
        unfold start at begun
        obtain ⟨_, _, same⟩ := Except.bind_eq_ok.mp begun
        obtain ⟨rfl, -⟩ := Prod.mk.inj (Except.ok.inj same)
        rfl
      obtain ⟨_, rfl⟩ := start_eq_ok begun
      exact ⟨resembles.stack, store ▸ resembles.kept, resembles.gathered, resembles.origins⟩
  | turns turned => exact absurd turned noTurn
  | readsAhead running here asked read =>
      obtain ⟨likes, entered⟩ := resembles.inputs (gathers running) here asked read
      obtain rfl := mergeInputs_run read
      refine ⟨resembles.stack, resembles.kept, ?_, entered⟩
      intro sources' loads' operator' params' here'
      obtain ⟨rfl, rfl, rfl, rfl⟩ := Step.merge.inj (Option.some.inj (here.symm.trans here'))
      refine likes.trans (List.take_of_length_le (Nat.le_of_eq ?_)).symm
      exact (congrArg List.length likes).symm.trans (List.length_map _)
  | summons running =>
      exact ⟨resembles.stack, resembles.kept, resembles.gathered, resembles.origins⟩
  | calls position running =>
      exact ⟨resembles.stack, resembles.kept, resembles.gathered, resembles.origins⟩
  | hears running named top answer =>
      exact ⟨resembles.stack, World.store_of_callSink answer ▸ resembles.kept, resembles.gathered,
        resembles.origins⟩
  | misses running named top answer =>
      exact ⟨resembles.stack, World.store_of_callSink answer ▸ resembles.kept, resembles.gathered,
        resembles.origins⟩
  | closes terminal unclosed closed => cases going.symm.trans terminal

end Run

end TaintFlow
