import TaintFlow.Proofs.Run.Turns
import TaintFlow.Proofs.Run.Validity

/-!
# The ideal run

Every network has a version of the same shape in which everything does its
part: capabilities always answer, operators answer at once and keep all labels,
and loads find what they look for if the store is stocked.  A run of an accepted
chain on it takes turn after turn and ends, so acceptance means exactly that
there is such a run that ends at the last step.
-/

namespace TaintFlow

/-- A capability that always has an answer. -/
def Capability.obliging : Capability where
  respond _ _ := .returns .null

/-- A source that always gives a value. -/
def Source.obliging (s : Source) : Source :=
  { s with capability := .obliging, timeout := none }

/-- A sink that accepts every value. -/
def Sink.obliging (s : Sink) : Sink := { s with capability := .obliging, timeout := none }

/-- An operator of as many inputs that always makes a value with all their labels. -/
def Operator.obliging (operator : Operator) : Operator :=
  { operator with
    action := .onPayloads fun _ _ _ => { result := .ok .null }
    preserving := true
    suspends := false }

/-- The network of the same shape in which everything does its part. -/
def Network.obliging (network : Network) : Network where
  sources := network.sources.map fun entry => (entry.1, entry.2.obliging)
  sinks := network.sinks.map fun entry => (entry.1, entry.2.obliging)
  engine := { operators := network.engine.operators.map fun entry => (entry.1, entry.2.obliging) }
  verifyLoads := false

namespace Network

variable {network : Network}

theorem find?_sources_obliging (id : String) :
    network.obliging.sources.find? id = (network.sources.find? id).map Source.obliging :=
  Assoc.find?_map Source.obliging id network.sources

theorem find?_sinks_obliging (id : String) :
    network.obliging.sinks.find? id = (network.sinks.find? id).map Sink.obliging :=
  Assoc.find?_map Sink.obliging id network.sinks

theorem find?_operators_obliging (network : Network) (id : String) :
    network.obliging.engine.operators.find? id =
      (network.engine.operators.find? id).map Operator.obliging :=
  Assoc.find?_map Operator.obliging id network.engine.operators

theorem sameShape_obliging (network : Network) : Chain.SameShape network network.obliging where
  sources id := Assoc.has_map Source.obliging id network.sources
  sinks id := Assoc.has_map Sink.obliging id network.sinks
  operators id := by
    rw [find?_operators_obliging, Option.map_map]
    rfl

theorem callSource_obliging (w : World) (at_ : World.Location) (id : String) (context : Payload) :
    Run.isDeclined (w.callSource network.obliging at_ id context none).1 = false := by
  unfold World.callSource Sources.get
  rw [find?_sources_obliging]
  cases network.sources.find? id with
  | none => rfl
  | some s => rfl

theorem callSink_obliging (w : World) (at_ : World.Location) (id : String) (value : Value) :
    Run.isDeclined (w.callSink network.obliging at_ id value none).1 = false := by
  unfold World.callSink Sinks.get
  rw [find?_sinks_obliging]
  cases network.sinks.find? id with
  | none => rfl
  | some s => rfl

/-- What an obliging operator answers passes every check. -/
theorem conclude_obliging (operator : Operator) (inputs : List Value) (step : Option Int) :
    Engine.conclude operator.obliging inputs step .null = .ok (.combine inputs .null) := by
  have labelled : Engine.label operator.obliging inputs .null = .ok (.combine inputs .null) := rfl
  have kept : ensurePreserved operator.obliging.id inputs (.combine inputs .null) step = .ok () :=
    ensureLabels_eq_ok_iff.mpr (SortedSet.subset_def.mpr fun _ inside => inside)
  unfold Engine.conclude
  rw [labelled]
  refine Except.bind_eq_ok.mpr ⟨_, rfl, ?_⟩
  have preserving : operator.obliging.preserving = true := rfl
  dsimp only
  rw [if_pos preserving]
  exact Except.check_eq_ok.mpr ⟨kept, rfl⟩

/-- An operator that is there makes a value of as many inputs as it takes. -/
theorem apply_obliging {id : String} {inputs : List Value} {params : Params} {step : Option Int}
    {store : Store} {operator : Operator}
    (found : network.obliging.engine.operators.find? id = some operator)
    (counted : (!inputs.isEmpty && operator.accepts inputs.length) = true) :
    (network.obliging.engine.apply id inputs params step store).outcome =
      some (.ok (.combine inputs .null)) := by
  have there := find?_operators_obliging network id
  rw [found] at there
  obtain ⟨original, _, rfl⟩ := Option.map_eq_some_iff.mp there.symm
  have some_ : ¬ (inputs.isEmpty || !original.obliging.accepts inputs.length) = true := by
    rw [Bool.and_eq_true, Bool.not_eq_true'] at counted
    rw [counted.1, counted.2]
    exact Bool.false_ne_true
  unfold Engine.apply
  rw [Engine.get_eq_ok.mpr found]
  dsimp only
  rw [if_neg some_]
  exact congrArg some (conclude_obliging original inputs step)

theorem operatorDeclines_obliging (w : World) (r : Run) (id : String) (inputs : List Value)
    (params : Params) : Run.operatorDeclines network.obliging w r id inputs params = false := by
  unfold Run.operatorDeclines
  cases found : network.obliging.engine.operators.find? id with
  | none => rfl
  | some operator =>
      dsimp only
      rw [World.applyOperator_outcome]
      cases counted : !inputs.isEmpty && operator.accepts inputs.length with
      | false => rfl
      | true =>
          rw [apply_obliging found counted]
          rfl

theorem untouching_obliging (network : Network) (c : Chain) :
    Run.Untouching network.obliging.engine c := by
  intro id _ operator found inputs params store
  have there := find?_operators_obliging network id
  rw [found] at there
  obtain ⟨original, _, rfl⟩ := Option.map_eq_some_iff.mp there.symm
  rfl

end Network

namespace Run

variable {network : Network} {chain : Chain} {scopes : RunScopes} {w : World} {r : Run}

/-! ## A stocked store -/

/-- Every key that a chain names holds a value. -/
def Stocked (c : Chain) (scopes : RunScopes) (store : Store) : Prop :=
  ∀ step ∈ c.steps, ∀ ref ∈ step.storeRefs, ∀ p,
    ref.scope.partition (scopes.idFor ref.scope) = .ok p →
      ∃ value writtenAt, store.slot? p ref.key = some (.live value writtenAt)

theorem live_write {store : Store} {p q : Partition} {key other : String} {value : Value}
    {writtenAt : Int} (live : ∃ value writtenAt, store.slot? q other = some (.live value writtenAt)) :
    ∃ value' writtenAt', (store.write p key value writtenAt).slot? q other =
      some (.live value' writtenAt') := by
  by_cases same : q = p ∧ other = key
  · obtain ⟨rfl, rfl⟩ := same
    exact ⟨_, _, Store.slot?_write_self store q other value writtenAt⟩
  · obtain ⟨old, oldAt, there⟩ := live
    refine ⟨old, oldAt, ?_⟩
    rw [Store.slot?_write_of_ne store (not_and_or.mp same)]
    exact there

/-- A store with a value at each of several keys. -/
def stock (scopes : RunScopes) : List StoreRef → Store
  | [] => {}
  | ref :: rest =>
    match ref.scope.partition (scopes.idFor ref.scope) with
    | .ok p => (stock scopes rest).write p ref.key {} 0
    | .error _ => stock scopes rest

theorem live_stock {refs : List StoreRef} {ref : StoreRef} {p : Partition} (inside : ref ∈ refs)
    (place : ref.scope.partition (scopes.idFor ref.scope) = .ok p) :
    ∃ value writtenAt, (stock scopes refs).slot? p ref.key = some (.live value writtenAt) := by
  induction refs with
  | nil => exact absurd inside List.not_mem_nil
  | cons first rest ih =>
      unfold stock
      rcases List.mem_cons.mp inside with rfl | inRest
      · rw [place]
        exact ⟨_, _, Store.slot?_write_self _ p ref.key _ _⟩
      · split
        · exact live_write (ih inRest)
        · exact ih inRest

/-- The store with a value at every key that a chain names is stocked for it. -/
theorem stocked_stock (c : Chain) (scopes : RunScopes) :
    Stocked c scopes (stock scopes (c.steps.flatMap Step.storeRefs)) := by
  intro step inSteps ref inRefs p place
  exact live_stock (List.mem_flatMap.mpr ⟨step, inSteps, inRefs⟩) place

/-! ## Nothing refuses -/

/-- A value that is live is read if nothing checks it. -/
theorem load_of_live {store : Store} {ref : StoreRef} {p : Partition} {value : Value}
    {writtenAt : Int} (unchecked : network.verifyLoads = false)
    (place : ref.scope.partition (r.scopes.idFor ref.scope) = .ok p)
    (live : store.slot? p ref.key = some (.live value writtenAt)) :
    load network store r ref = .ok (value, r.entered value.labels) := by
  have read : readSlot store p ref.key = .ok value := by
    unfold readSlot
    rw [live]
  unfold load
  rw [place]
  refine Except.bind_eq_ok.mpr ⟨p, rfl, ?_⟩
  rw [read]
  refine Except.bind_eq_ok.mpr ⟨value, rfl, ?_⟩
  rw [unchecked]
  cases r.written.find? ref with
  | none => rfl
  | some labels => rfl

theorem loadAll_of_live {store : Store} {loads : List StoreRef} {values : List Value}
    (unchecked : network.verifyLoads = false)
    (live : ∀ ref ∈ loads, ∃ p value writtenAt,
      ref.scope.partition (r.scopes.idFor ref.scope) = .ok p ∧
        store.slot? p ref.key = some (.live value writtenAt)) :
    ∃ inputs r', loadAll network store r loads values = .ok (inputs, r') := by
  induction loads generalizing r values with
  | nil => exact ⟨_, _, rfl⟩
  | cons ref rest ih =>
      obtain ⟨p, value, writtenAt, place, there⟩ := live ref List.mem_cons_self
      unfold loadAll
      rw [load_of_live unchecked place there]
      exact ih fun other inRest => live other (List.mem_cons_of_mem _ inRest)

theorem not_any_isDeclined {value : Value} {sinks : List String}
    {outcomes : List (Option (Except Fault SinkResult))}
    (answers : List.Forall₂ (Answer network.obliging none value) sinks outcomes) :
    outcomes.any isDeclined = false := by
  induction answers with
  | nil => rfl
  | cons answer rest ih =>
      obtain ⟨w, at_, same⟩ := answer
      rw [List.any_cons, ← same, Network.callSink_obliging, Bool.false_or]
      exact ih

/-- In a stocked world nothing that an obliging network has refuses to do its part. -/
theorem refuses_obliging {step : Step} (here : r.chain.steps[r.next]? = some step)
    (timeout : r.timeout = none) (calls : r.calls = []) (provided : Provided r.chain r.scopes)
    (stocked : Stocked r.chain r.scopes w.store) :
    refuses network.obliging w r step = false := by
  have live : ∀ ref ∈ step.storeRefs, ∃ p value writtenAt,
      ref.scope.partition (r.scopes.idFor ref.scope) = .ok p ∧
        w.store.slot? p ref.key = some (.live value writtenAt) := by
    intro ref named
    have inside := List.mem_of_getElem? here
    obtain ⟨p, place⟩ := provided.partition inside named
    obtain ⟨value, writtenAt, there⟩ := stocked step inside ref named p place
    exact ⟨p, value, writtenAt, place, there⟩
  unfold refuses
  cases step with
  | source id =>
      dsimp only
      rw [timeout]
      exact Network.callSource_obliging w r.location id r.context
  | relay id params =>
      dsimp only
      rw [Network.operatorDeclines_obliging, Bool.and_false]
  | store target => rfl
  | load origin =>
      obtain ⟨p, value, writtenAt, place, there⟩ := live origin (List.mem_singleton_self origin)
      dsimp only
      rw [load_of_live rfl place there]
      rfl
  | fanout sinks =>
      dsimp only
      split
      · rename_i value top
        unfold sinkOutcomes
        rw [calls]
        have answers := (callSinks_answers network.obliging w r value.forward sinks).1
        rw [timeout] at answers
        exact not_any_isDeclined answers
      · rfl
  | merge sources loads id params =>
      dsimp only
      split
      · rw [timeout]
        exact Network.callSource_obliging w r.location _ r.context
      · obtain ⟨inputs, r', read⟩ : ∃ inputs r',
            mergeInputs network.obliging w.store r loads = .ok (inputs, r') := by
          unfold mergeInputs
          split
          · exact ⟨_, _, rfl⟩
          · have all : ∃ inputs r', loadAll network.obliging w.store r loads r.gathered =
                .ok (inputs, r') := loadAll_of_live rfl live
            obtain ⟨inputs, r', all⟩ := all
            rw [all]
            exact ⟨_, _, rfl⟩
        rw [read]
        exact Network.operatorDeclines_obliging w r id inputs params
  | sink id =>
      dsimp only
      split
      · rw [timeout]
        exact Network.callSink_obliging w r.location id _
      · rfl

/-! ## The run that comes to its end -/

variable {rely : World → World → Prop} {runId : String} {context : Payload} {log : List Event}

/-- Nobody else does anything. -/
def Alone (_ _ : World) : Prop := False

/-- A run in which nothing has been refused, that has not been interrupted, and that will find what
it looks for in the store. -/
structure Undisturbed (network : Network) (origin : Run) (log : List Event) (w : World)
    (r : Run) : Prop where
  way : Course network.obliging Alone origin log w r
  smooth : Smooth log
  timeout : r.timeout = none
  calls : r.calls = []
  notLoaded : r.loaded = false
  stocked : Stocked r.chain r.scopes w.store

/-- A store that is stocked stays stocked while a run goes on. -/
theorem Stocked.of_deed {w' : World} {r' : Run} (stocked : Stocked r.chain r.scopes w.store)
    (deed : Deed network.obliging w r w' r') (running : r'.state = .running) :
    Stocked r.chain r.scopes w'.store := by
  rcases deed.store (Network.untouching_obliging network _) running with same | ⟨_, _, _, _, _, _, same⟩
  · rw [same]
    exact stocked
  · intro step inside ref named p place
    rw [same]
    exact live_write (stocked step inside ref named p place)

/-- An undisturbed run takes its turn, and is undisturbed after it and has fewer turns left, or it
has ended. -/
theorem Undisturbed.turn {origin : Run}
    (valid : chain.validate network.obliging = .ok ()) (provided : Provided chain scopes)
    (fresh : origin = .fresh chain scopes runId context)
    (calm : Undisturbed network origin log w r) (running : r.state = .running) :
    ∃ w' r', Course network.obliging Alone origin (log ++ report network.obliging w r) w' r' ∧
      Smooth (log ++ report network.obliging w r) ∧
      (r'.state.isTerminal = true ∨ r'.state = .running ∧ r'.turnsLeft < r.turnsLeft ∧
        Undisturbed network origin (log ++ report network.obliging w r) w' r') := by
  subst fresh
  obtain ⟨step, here⟩ := calm.way.exists_step rfl running
  have ready := calm.way.ready valid provided running here
  have willing : refuses network.obliging w r step = false :=
    refuses_obliging here calm.timeout calm.calls ready.provided calm.stocked
  obtain ⟨w', r', turned⟩ := advance_of_goesWell running here (runStep_goesWell ready willing)
  have way := calm.way.turned turned
  obtain ⟨_, deed⟩ := deed_of_advance turned
  have smooth : Smooth (log ++ report network.obliging w r) := by
    intro i inside
    rcases List.mem_append.mp inside with inLog | inReport
    · exact calm.smooth i inLog
    · exact nomatch willing.symm.trans (refused_of_mem_report here inReport).2
  refine ⟨w', r', way, smooth, ?_⟩
  have goesOn : r'.state = .running → r'.turnsLeft < r.turnsLeft ∧ r'.loaded = false ∧
      Stocked r.chain r.scopes w'.store := by
    intro after
    obtain ⟨fewer, notLoaded⟩ := deed.turnsLeft_lt running ready.gathers calm.notLoaded after
    exact ⟨fewer, notLoaded, calm.stocked.of_deed deed after⟩
  rcases deed.cases_of_running running with passes | ⟨_, value, collects⟩ | ⟨_, _, _, judges⟩ | ends
  · cases after : r'.state with
    | running =>
        obtain ⟨fewer, notLoaded, stocked⟩ := goesOn after
        refine .inr ⟨rfl, fewer, way, smooth, passes.timeout.trans calm.timeout, ?_, notLoaded, ?_⟩
        · exact passes.calls.elim id fun same => same.1.trans calm.calls
        · rw [passes.chain, passes.scopes]
          exact stocked
    | pending => exact absurd after way.state_ne_pending
    | completed => exact .inl rfl
    | broken => exact .inl rfl
    | failed => exact .inl rfl
  · obtain rfl := collects.same
    obtain ⟨fewer, notLoaded, stocked⟩ := goesOn running
    exact .inr ⟨running, fewer, way, smooth, calm.timeout, calm.calls, notLoaded, stocked⟩
  · exact .inl judges.isTerminal
  · exact .inl ends.isTerminal

/-- An undisturbed run of an accepted chain comes to its end. -/
theorem Undisturbed.ends {origin : Run}
    (valid : chain.validate network.obliging = .ok ()) (provided : Provided chain scopes)
    (fresh : origin = .fresh chain scopes runId context) {turns : Nat} :
    ∀ {log w r}, Undisturbed network origin log w r → r.state = .running → r.turnsLeft ≤ turns →
      ∃ log' w' r', Course network.obliging Alone origin log' w' r' ∧ Smooth log' ∧
        r'.state.isTerminal = true := by
  -- On a bound of the turns that are left, for all runs that are still undisturbed at once.
  induction turns with
  | zero =>
      intro log w r calm running few
      obtain ⟨w', r', way, smooth, terminal | ⟨_, fewer, _⟩⟩ :=
        calm.turn valid provided fresh running
      · exact ⟨_, w', r', way, smooth, terminal⟩
      · omega
  | succ turns ih =>
      intro log w r calm running few
      obtain ⟨w', r', way, smooth, terminal | ⟨after, fewer, calm'⟩⟩ :=
        calm.turn valid provided fresh running
      · exact ⟨_, w', r', way, smooth, terminal⟩
      · exact ih calm' after (by omega)

/-- An accepted chain has a run in which everything does its part and that comes to its end. -/
theorem exists_smooth_end (valid : chain.validate network = .ok ())
    (provided : Provided chain scopes) (runId : String) (context : Payload) :
    ∃ log w r, Course network.obliging Alone (fresh chain scopes runId context) log w r ∧
      Smooth log ∧ r.state.isTerminal = true := by
  have begins : Course network.obliging Alone (fresh chain scopes runId context) [] _ _ :=
    .started (w := { store := stock scopes (chain.steps.flatMap Step.storeRefs) }) rfl
  have calm : Undisturbed network (fresh chain scopes runId context) [] _ _ :=
    ⟨begins, fun _ inside => absurd inside List.not_mem_nil, rfl, rfl, rfl,
      stocked_stock chain scopes⟩
  exact calm.ends ((Network.sameShape_obliging network).validate valid) provided rfl rfl
    (Nat.le_refl _)

/-- **Validation agrees with execution.**  A chain is accepted if and only if there is a run of it,
with components that all do their part and keep all labels, that ends at the last step without
having been stopped before.  More than that, take any run of the chain, on any components of the
same shape and whatever else happens.  If everything that it relied on did its part and it has
ended, it has ended at the last step in this way exactly if the chain is accepted.  If the chain is
accepted, the run cannot get stuck before its end unless something refuses to do its part, and the
number of its active values before each step is the depth that validation counts there. -/
theorem validate_iff_concludes (network : Network) (chain : Chain) :
    (∀ scopes, Provided chain scopes → ∀ runId context,
      (chain.validate network = .ok () ↔
        ∃ log w r, Course network.obliging Alone (fresh chain scopes runId context) log w r ∧
          Smooth log ∧ Concludes chain log r)) ∧
    ∀ other, Chain.SameShape network other →
      ∀ {rely scopes runId context timeout log w r},
        Course other rely (fresh chain scopes runId context timeout) log w r →
          (Provided chain scopes → Smooth log → r.state.isTerminal = true →
            (chain.validate network = .ok () ↔ Concludes chain log r)) ∧
          (chain.validate network = .ok () → r.state = .running →
            Chain.depthBefore network chain r.next = some r.stack.length ∧
            (Provided chain scopes → advance other w r = none →
              .refused r.next ∈ report other w r)) := by
  have shape := Network.sameShape_obliging network
  constructor
  · intro scopes provided runId context
    constructor
    · intro valid
      obtain ⟨log, w, r, way, smooth, terminal⟩ :=
        exists_smooth_end valid provided runId context
      exact ⟨log, w, r, way, smooth,
        concludes_of_valid (shape.validate valid) provided way smooth terminal⟩
    · rintro ⟨log, w, r, way, smooth, concludes⟩
      exact shape.symm.validate (valid_of_concludes way smooth concludes)
  · intro other same rely scopes runId context timeout log w r way
    constructor
    · intro provided smooth terminal
      constructor
      · intro valid
        exact concludes_of_valid (same.validate valid) provided way smooth terminal
      · intro concludes
        exact same.symm.validate (valid_of_concludes way smooth concludes)
    · intro valid running
      have depth := way.depthBefore_eq rfl rfl rfl rfl rfl running
      rw [show r.chain = chain from way.chain_eq] at depth
      refine ⟨same.symm.depthBefore depth, fun provided stalled => ?_⟩
      exact refuses_of_stalled (same.validate valid) provided way running stalled

/-- The chain from a source to a sink has a run that concludes. -/
theorem concludes_direct :
    ∃ log w r, Course shortcut.obliging Alone (fresh direct ⟨"1", none⟩ "1" .null) log w r ∧
      Smooth log ∧ Concludes direct log r :=
  ((validate_iff_concludes shortcut direct).1 ⟨"1", none⟩ ⟨by decide, nofun⟩ "1" .null).mp rfl

end Run

end TaintFlow
