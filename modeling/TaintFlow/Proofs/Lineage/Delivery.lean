import TaintFlow.Proofs.Lineage.Drawing
import TaintFlow.Proofs.Run.Turns
import TaintFlow.Proofs.Store.Slots

/-!
# What is delivered is the value of its lineage

A run moves values between a stack and a store; its drawing moves nodes in the
same way.  `Mirrors` says that the two agree, and is kept by every deed and by
whatever others do that does not write where the run writes.  What is handed to
the last sinks is therefore the value of the graph at the node of the active
value, one hop on.
-/

namespace TaintFlow.Run

open Lineage

variable {network : Network} {log : List Event} {w w' : World} {r r' : Run} {d : Drawing}
  {scopes : RunScopes} {store : Store}

/-! ## What others leave alone -/

/-- Others write nothing where runs of a chain write; they may clear and release what is there. -/
def Spares (c : Chain) (scopes : RunScopes) (w w' : World) : Prop :=
  ∀ target, .store target ∈ c.steps → ∀ value, Lives scopes w'.store target value →
    Lives scopes w.store target value

/-- What lives under a key after a write to it is what was written. -/
theorem Lives.eq_of_write {target : StoreRef} {p : Partition} {written value : Value}
    {writtenAt : Int} (place : target.scope.partition (scopes.idFor target.scope) = .ok p)
    (lives : Lives scopes (store.write p target.key written writtenAt) target value) :
    value = written := by
  obtain ⟨q, at_, same, live⟩ := lives
  obtain rfl := Except.ok.inj (place.symm.trans same)
  rw [Store.slot?_write_self] at live
  exact (Slot.live.inj (Option.some.inj live)).1.symm

/-- What lives under another key was there before the write. -/
theorem Lives.of_write {target other : StoreRef} {p : Partition} {written value : Value}
    {writtenAt : Int} (place : target.scope.partition (scopes.idFor target.scope) = .ok p)
    (different : other ≠ target)
    (lives : Lives scopes (store.write p target.key written writtenAt) other value) :
    Lives scopes store other value := by
  obtain ⟨q, at_, found, live⟩ := lives
  refine ⟨q, at_, found, ?_⟩
  rw [Store.slot?_write_of_ne] at live
  · exact live
  · by_contra neither
    obtain ⟨same, key⟩ := not_or.mp neither
    have scope : other.scope = target.scope := by
      rw [← (Scope.partition_eq_ok found).1, not_not.mp same, (Scope.partition_eq_ok place).1]
    exact different (congrArg₂ StoreRef.mk scope (not_not.mp key))

theorem untouching_of_usesLibrary {engine : Engine} {c : Chain} (uses : c.UsesLibrary engine) :
    Untouching engine c := by
  intro id inside operator found inputs params store
  obtain ⟨other, inLibrary, _, same⟩ := uses id inside
  obtain rfl := Option.some.inj (same.symm.trans found)
  exact (Operator.isTransparent_of_mem_library inLibrary).edits inputs params store

/-! ## A run and its drawing -/

/-- A drawing agrees with a run and the store. -/
structure Mirrors (engine : Engine) (d : Drawing) (store : Store) (r : Run) : Prop where
  depicts : Depicts engine d r.stack r.gathered (Lives r.scopes store)
  listed : ∀ step, r.chain.steps[r.next]? = some step →
    d.arrived.map Prod.fst = step.needs.take r.gathered.length
  known : ∀ target k, d.stored.find? target = some k → .store target ∈ r.chain.steps

/-- Nothing has arrived where nothing is gathered. -/
theorem arrived_eq_nil {engine : Engine} {stack gathered : List Value}
    {kept : StoreRef → Value → Prop} (depicts : Depicts engine d stack gathered kept)
    (nil : gathered = []) : d.arrived = [] := by
  have arrived := depicts.arrived
  rw [nil] at arrived
  exact List.map_eq_nil_iff.mp (List.forall₂_nil_right_iff.mp arrived)

/-- A step that has got what it asks for is drawn when it is done, and leaves nothing gathered. -/
theorem Mirrors.pass {engine : Engine} (first : List Event) {d₁ d₂ : Drawing} {step : Step}
    {after : Run} {entry : StepTrace}
    (drawn : first.foldlM (Drawing.note engine r.chain) d = some d₁)
    (here : r.chain.steps[r.next]? = some step)
    (listed : d₁.arrived.map Prod.fst = step.needs)
    (settled : d₁.settle engine step = some d₂)
    (shown : Depicts engine d₂ after.stack [] (Lives after.scopes store))
    (known : ∀ target k, d₂.stored.find? target = some k → .store target ∈ after.chain.steps)
    (nil : after.gathered = []) :
    ∃ d', (first ++ [Event.passed r.next]).foldlM (Drawing.note engine r.chain) d = some d' ∧
      Mirrors engine d' store (after.passOn entry) := by
  refine ⟨d₂, ?_, ?_, ?_, known⟩
  · rw [List.foldlM_append, drawn]
    simp [Drawing.note, here, listed, settled]
  · rw [passOn_scopes, passOn_stack, passOn_gathered, nil]
    exact shown
  · intro step _
    rw [arrived_eq_nil shown rfl, passOn_gathered, nil]
    rfl

/-- A merge that has asked all its sources has got what it asks for once it has read its keys. -/
theorem Mirrors.read {sources : List String} {loads : List StoreRef} {operator : String}
    {params : Params} {inputs : List Value} {r₁ : Run} {engine : Engine}
    (mirrors : Mirrors engine d store r) (gathers : Gathers network r)
    (here : r.chain.steps[r.next]? = some (.merge sources loads operator params))
    (asked : sources[r.gathered.length]? = none)
    (read : mergeInputs network store r loads = .ok (inputs, r₁)) :
    ∃ d', (pendingReadings network store r loads).foldlM (Drawing.note engine r.chain) d = some d' ∧
      Depicts engine d' r.stack inputs (Lives r.scopes store) ∧
      d'.arrived.map Prod.fst = (Step.merge sources loads operator params).needs ∧
      d'.stored = d.stored := by
  obtain ⟨found, rfl, live, events, none, _⟩ := mergeInputs_eq_ok read
  obtain ⟨_, open_, closed⟩ := gathers.merge here
  have listed := mirrors.listed _ here
  have all := List.getElem?_eq_none_iff.mp asked
  rw [events]
  cases loaded : r.loaded with
  | true =>
      rw [none loaded, List.append_nil, if_pos rfl]
      refine ⟨d, rfl, mirrors.depicts, ?_, rfl⟩
      rw [listed, closed loaded]
      exact List.take_of_length_le (by simp [Step.needs])
  | false =>
      rw [if_neg Bool.false_ne_true]
      obtain ⟨d', drawn, shown, names, stored⟩ := mirrors.depicts.reads (live loaded)
      refine ⟨d', drawn, shown, ?_, stored⟩
      rw [names, listed, Nat.le_antisymm (open_ loaded) all]
      show ((sources.map Need.source ++ loads.map Need.stored).take sources.length) ++
        loads.map Need.stored = sources.map Need.source ++ loads.map Need.stored
      rw [List.take_left' (List.length_map Need.source)]

/-- A source of a merge has given what the merge asks for next. -/
theorem Mirrors.collect {engine : Engine} {sources : List String} {loads : List StoreRef}
    {operator : String} {params : Params} {id : String} {value : Value}
    (mirrors : Mirrors engine d store r)
    (here : r.chain.steps[r.next]? = some (.merge sources loads operator params))
    (asked : sources[r.gathered.length]? = some id) :
    Mirrors engine (d.arrive (.source id) (.leaf value)) store
      ((r.entered value.labels).collect value) where
  depicts := mirrors.depicts.gave id value
  listed := by
    intro step here'
    obtain rfl := Option.some.inj (here.symm.trans here')
    have count : (r.gathered ++ [value]).length = r.gathered.length + 1 := List.length_append
    have next : (Step.merge sources loads operator params).needs[r.gathered.length]? =
        some (.source id) := by
      obtain ⟨less, _⟩ := List.getElem?_eq_some_iff.mp asked
      unfold Step.needs
      rw [List.getElem?_append_left, List.getElem?_map, asked]
      · rfl
      · rw [List.length_map]
        exact less
    show (d.arrived ++ [(Need.source id, d.graph.length)]).map Prod.fst =
      List.take (r.gathered ++ [value]).length _
    rw [count, List.take_add_one, next, List.map_append, mirrors.listed _ here]
    rfl
  known := mirrors.known

/-- What an operator of the library has made for a step. -/
theorem made_of_usesLibrary {step : Step} {id : String} {at_ : World.Location} {inputs : List Value}
    {params : Params} {index : Option Int} {output : Value} {w₁ : World}
    (uses : r.chain.UsesLibrary network.engine) (here : r.chain.steps[r.next]? = some step)
    (applies : step.operator? = some id)
    (applied : w.applyOperator network at_ id inputs params index = (some (.ok output), w₁)) :
    MadeBy network.engine id inputs params w.store output := by
  obtain ⟨operator, inside, named, found⟩ := uses id (Chain.mem_operators here applies)
  obtain ⟨_, same, made⟩ := accepts_of_applied applied
  obtain rfl := Option.some.inj (found.symm.trans same)
  exact ⟨operator, inside, named, found, made⟩

/-- What a run goes on with is what its drawing goes on with. -/
theorem Mirrors.deed (mirrors : Mirrors network.engine d w.store r)
    (uses : r.chain.UsesLibrary network.engine) (gathers : Gathers network r)
    (deed : Deed network w r w' r') (after : r'.state = .running) :
    ∃ d', (report network w r).foldlM (Drawing.note network.engine r.chain) d = some d' ∧
      Mirrors network.engine d' w'.store r' := by
  have untouched : ∀ {step}, r.chain.steps[r.next]? = some step → step.kind ≠ .store →
      w'.store = w.store := by
    intro step here other
    exact deed.store_eq (untouching_of_usesLibrary uses) after here other
  -- A step that asks for nothing has got nothing.
  have idle : ∀ {step : Step}, r.chain.steps[r.next]? = some step → step.needs = [] →
      d.arrived.map Prod.fst = step.needs := by
    intro step here none
    rw [mirrors.listed step here, none]
    exact List.take_nil
  cases deed with
  | @took id value _ here gave events =>
      obtain ⟨none, _⟩ := gathers.nil_of_other here (by simp [Step.kind])
      have shown := (mirrors.depicts.gave id value).push
      rw [none] at shown
      rw [events, untouched here (by simp [Step.kind])]
      refine Mirrors.pass [.gave id value] rfl here ?_ rfl shown mirrors.known none
      simp [Drawing.arrive, arrived_eq_nil mirrors.depicts none, Step.needs]
  | @gathered id value _ _ collects =>
      obtain ⟨sources, loads, operator, params, here, asked, gave⟩ := collects.asked
      obtain rfl := collects.same
      rw [collects.events, untouched here (by simp [Step.kind])]
      exact ⟨_, rfl, mirrors.collect here asked⟩
  | @relayed id params operator count output _ here found taken some_ enough applied events =>
      obtain ⟨none, _⟩ := gathers.nil_of_other here (by simp [Step.kind])
      have shown := mirrors.depicts.apply (made_of_usesLibrary uses here rfl applied)
        (List.forall₂_take (r.stack.length - count) mirrors.depicts.active)
        (List.forall₂_drop (r.stack.length - count) mirrors.depicts.active)
      rw [events, untouched here (by simp [Step.kind])]
      refine Mirrors.pass [] rfl here (idle here rfl) ?_ shown mirrors.known none
      rw [taken, ← mirrors.depicts.active.length_eq]
      simp [Drawing.settle, found]
  | @stored target value p here top place events =>
      obtain ⟨none, _⟩ := gathers.nil_of_other here (by simp [Step.kind])
      have written : ∀ v, Lives r.scopes
          (w.store.write p target.key value.forward value.forward.hops) target v →
            v = value.forward :=
        fun _ lives => lives.eq_of_write place
      obtain ⟨k, last, shown⟩ := mirrors.depicts.store top written fun _ _ => Lives.of_write place
      rw [none] at shown
      rw [events, World.count_store, World.edit_store]
      refine Mirrors.pass [] rfl here (idle here rfl) ?_ shown ?_ none
      · simp [Drawing.settle, last]
      · intro other j found
        by_cases same : other = target
        · rw [same]
          exact List.mem_of_getElem? here
        · rw [Assoc.find?_put_of_ne same] at found
          exact mirrors.known other j found
  | @loaded origin value here read events =>
      obtain ⟨none, _⟩ := gathers.nil_of_other here (by simp [Step.kind])
      have shown := (mirrors.depicts.read (load_eq_ok read).2).push
      rw [none] at shown
      rw [events, untouched here (by simp [Step.kind])]
      refine Mirrors.pass [.read origin value] rfl here ?_ rfl shown mirrors.known none
      simp [Drawing.arrive, arrived_eq_nil mirrors.depicts none, Step.needs]
  | merged here asked read applied events =>
      obtain ⟨d₁, drawn, shown, listed, stored⟩ := mirrors.read gathers here asked read
      have known : ∀ target k, d₁.stored.find? target = some k → .store target ∈ r.chain.steps := by
        rw [stored]
        exact mirrors.known
      rw [events, untouched here (by simp [Step.kind])]
      exact Mirrors.pass _ drawn here listed rfl
        (shown.apply (made_of_usesLibrary uses here rfl applied) shown.active shown.arrived) known rfl
  | @handedOn sinks value outcomes _ _ here onTheWay top handed heard store events =>
      obtain ⟨none, _⟩ := gathers.nil_of_other here (by simp [Step.kind])
      have shown := mirrors.depicts
      rw [none] at shown
      rw [events, store]
      exact Mirrors.pass [.delivered r.next value.forward outcomes] rfl here (idle here rfl) rfl shown
        mirrors.known none
  | judged judges => exact absurd after judges.not_running
  | ended ends => exact absurd after ends.not_running

variable {chain : Chain} {runId : String} {context : Payload} {timeout : Option Timeout}

theorem drawing_append (engine : Engine) (c : Chain) (log more : List Event) :
    drawing engine c (log ++ more) = (drawing engine c log).bind (more.foldlM (Drawing.note engine c)) :=
  List.foldlM_append

/-- All along a course a run is mirrored by the drawing of what it has reported. -/
theorem Course.mirrors (uses : chain.UsesLibrary network.engine)
    (way : Course network (Spares chain scopes) (fresh chain scopes runId context timeout) log w r)
    (running : r.state = .running) :
    ∃ d, drawing network.engine chain log = some d ∧ Mirrors network.engine d w.store r := by
  induction way with
  | started begun =>
      obtain ⟨_, rfl⟩ := start_eq_ok begun
      exact ⟨{}, rfl, .nil, fun step _ => rfl, nofun⟩
  | turned before turn ih =>
      obtain ⟨was, deed⟩ := deed_of_advance turn
      obtain ⟨d, drawn, mirrors⟩ := ih was
      have same := before.chain_eq
      obtain ⟨d', further, mirrors⟩ :=
        mirrors.deed (same ▸ uses) (before.gathers rfl rfl was) deed running
      rw [same] at further
      refine ⟨d', ?_, mirrors⟩
      rw [drawing_append, drawn]
      exact further
  | @readAhead log w r r' sources loads operator params inputs before was here asked read ih =>
      obtain ⟨d, drawn, mirrors⟩ := ih was
      have gathers := before.gathers rfl rfl was
      obtain ⟨d', further, shown, listed, stored⟩ := mirrors.read gathers here asked read
      have same := before.chain_eq
      rw [same] at further
      refine ⟨d', ?_, ?_⟩
      · rw [drawing_append, drawn]
        exact further
      · rw [mergeInputs_run read]
        refine ⟨shown, ?_, stored ▸ mirrors.known⟩
        intro step here'
        obtain rfl := Option.some.inj (here.symm.trans here')
        rw [listed, List.take_of_length_le]
        have count := (gathers.length_eq here asked read).1
        show _ ≤ inputs.length
        simp [Step.needs, count]
  | summoned before was ih =>
      obtain ⟨d, drawn, mirrors⟩ := ih was
      exact ⟨d, drawn, mirrors.depicts, mirrors.listed, mirrors.known⟩
  | called position before was ih =>
      obtain ⟨d, drawn, mirrors⟩ := ih was
      exact ⟨d, drawn, mirrors.depicts, mirrors.listed, mirrors.known⟩
  | @answered log w w' r position id value outcome before was named top answer ih =>
      obtain ⟨d, drawn, mirrors⟩ := ih was
      refine ⟨d, drawn, ?_, mirrors.listed, mirrors.known⟩
      rw [World.store_of_callSink answer]
      exact mirrors.depicts
  | waited before others ih =>
      obtain ⟨d, drawn, mirrors⟩ := ih running
      refine ⟨d, drawn, mirrors.depicts.of_kept ?_, mirrors.listed, mirrors.known⟩
      intro target k found value lives
      have inside := mirrors.known target k found
      rw [before.chain_eq] at inside
      rw [before.scopes_eq] at lives ⊢
      exact others target inside value lives

/-! ## The last step -/

/-- A value is the value of a lineage: that of the node of the active value. -/
def IsLineage (engine : Engine) (c : Chain) (log : List Event) (value : Value) : Prop :=
  ∃ d k, drawing engine c log = some d ∧ d.stack.getLast? = some k ∧
    d.graph.IsValueOf engine k value

/-- A step that hands a value to sinks changes nothing in a drawing. -/
theorem Mirrors.report {engine : Engine} {step : Step} (mirrors : Mirrors engine d store r)
    (here : r.chain.steps[r.next]? = some step)
    (hands : (∃ id, step = .sink id) ∨ ∃ sinks, step = .fanout sinks) :
    (report network w r).foldlM (Drawing.note engine r.chain) d = some d := by
  have quiet : arrivals network w r step = [] ∧ step.needs = [] ∧ d.settle engine step = some d := by
    rcases hands with ⟨id, rfl⟩ | ⟨sinks, rfl⟩
    · exact ⟨rfl, rfl, rfl⟩
    · exact ⟨rfl, rfl, rfl⟩
  obtain ⟨none, idle, settled⟩ := quiet
  have still : ∀ events : List Event, (∀ event ∈ events, Drawing.note engine r.chain d event = some d) →
      events.foldlM (Drawing.note engine r.chain) d = some d := by
    intro events all
    induction events with
    | nil => rfl
    | cons event rest ih =>
        rw [List.foldlM_cons, all event List.mem_cons_self]
        exact ih fun other inRest => all other (List.mem_cons_of_mem _ inRest)
  refine still _ fun event inside => ?_
  obtain ⟨step', here', arrived | delivered | ⟨rfl, _⟩ | judged⟩ := mem_report.mp inside
  · obtain rfl := Option.some.inj (here.symm.trans here')
    rw [none] at arrived
    exact absurd arrived List.not_mem_nil
  · obtain ⟨_, _, _, rfl⟩ := delivered_of_mem_deliveries delivered
    rfl
  · rfl
  · rcases passed_or_stopped_of_mem_verdict judged with ⟨rfl, _⟩ | ⟨_, rfl⟩
    · have listed := mirrors.listed step here
      rw [idle, List.take_nil] at listed
      simp [Drawing.note, here, idle, listed, settled]
    · rfl

theorem Mirrors.isLineage {engine : Engine} {value : Value} (mirrors : Mirrors engine d store r)
    (drawn : drawing engine chain log = some d) (top : r.top? = some value) :
    IsLineage engine chain log value := by
  obtain ⟨k, last, is⟩ := mirrors.depicts.last top
  exact ⟨d, k, drawn, last, is⟩

/-- A run of an accepted chain that comes to its last step has an active value. -/
theorem Course.exists_top {rely : World → World → Prop} (valid : chain.validate network = .ok ())
    (way : Course network rely (fresh chain scopes runId context timeout) log w r)
    (running : r.state = .running) (last : r.next = chain.lastIndex) :
    ∃ value, r.top? = some value := by
  have depth := way.depthBefore_eq rfl rfl rfl rfl rfl running
  rw [way.chain_eq, last] at depth
  obtain ⟨before, after, earlier, done, _⟩ := Chain.depthAfter_of_valid valid chain.steps_lastIndex
  obtain rfl := Option.some.inj (depth.symm.trans earlier)
  have allows := Chain.depthAfter_eq_ok.mp done
  rcases Chain.last_concludes valid with ⟨id, last⟩ | ⟨sinks, last⟩
  · rw [last] at allows
    exact Run.exists_top allows.1
  · rw [last] at allows
    exact Run.exists_top allows.1

/-- Nothing has been delivered at the last step while its run is going. -/
theorem Course.not_delivered {rely : World → World → Prop} {value : Value}
    {outcomes : List (Except Fault SinkResult)}
    (way : Course network rely (fresh chain scopes runId context timeout) log w r)
    (running : r.state = .running) : .delivered chain.lastIndex value outcomes ∉ log := by
  intro inside
  obtain ⟨step, here⟩ := way.exists_step rfl running
  rw [way.chain_eq] at here
  have past := (way.marked rfl running).delivered _ _ _ inside
  exact absurd (Chain.le_lastIndex here) (Nat.not_le_of_lt past)

theorem hands_of_mem_deliveries {step : Step} {event : Event}
    (inside : event ∈ deliveries network w r step) :
    (∃ id, step = .sink id) ∨ ∃ sinks, step = .fanout sinks := by
  cases step with
  | sink id => exact .inl ⟨id, rfl⟩
  | fanout sinks => exact .inr ⟨sinks, rfl⟩
  | source id => exact absurd inside List.not_mem_nil
  | relay id params => exact absurd inside List.not_mem_nil
  | store target => exact absurd inside List.not_mem_nil
  | load origin => exact absurd inside List.not_mem_nil
  | merge sources loads id params => exact absurd inside List.not_mem_nil

/-- **Provenance is lineage.**  Take an accepted chain whose operators all come with the library, and
a run of it during which others write nothing where it writes.  If the run comes to its last step,
its active value is the value of its lineage, and so is every value that is delivered at the last
step, one hop on. -/
theorem delivers_lineage (valid : chain.validate network = .ok ())
    (uses : chain.UsesLibrary network.engine)
    (way : Course network (Spares chain scopes) (fresh chain scopes runId context timeout) log w r) :
    (r.state = .running → r.next = chain.lastIndex →
      ∃ value, r.top? = some value ∧ IsLineage network.engine chain log value) ∧
      ∀ delivered outcomes, .delivered chain.lastIndex delivered outcomes ∈ log →
        ∃ value, delivered = value.forward ∧ IsLineage network.engine chain log value := by
  constructor
  · intro running last
    obtain ⟨value, top⟩ := way.exists_top valid running last
    obtain ⟨d, drawn, mirrors⟩ := way.mirrors uses running
    exact ⟨value, top, mirrors.isLineage drawn top⟩
  · intro delivered outcomes inside
    induction way with
    | started begun => exact absurd inside List.not_mem_nil
    | @turned log w w' r r' before turn ih =>
        obtain ⟨running, _⟩ := deed_of_advance turn
        obtain ⟨d, drawn, mirrors⟩ := before.mirrors uses running
        rcases List.mem_append.mp inside with inLog | inReport
        · exact absurd inLog (before.not_delivered running)
        · obtain ⟨_, step, active, here, top, same, inDeliveries⟩ := delivered_of_mem_report inReport
          -- What the sinks are handed is drawn before the turn, and the turn adds nothing to it.
          have still : (report network w r).foldlM (Drawing.note network.engine r.chain) d = some d :=
            mirrors.report here (hands_of_mem_deliveries inDeliveries)
          refine ⟨active, same, mirrors.isLineage ?_ top⟩
          rw [before.chain_eq] at still
          rw [drawing_append, drawn]
          exact still
    | readAhead before was here asked read ih =>
        rcases List.mem_append.mp inside with inLog | inReadings
        · exact absurd inLog (before.not_delivered was)
        · obtain ⟨_, _, other⟩ := read_of_mem_pendingReadings inReadings
          cases other
    | summoned before was ih => exact ih inside
    | called position before was ih => exact ih inside
    | answered before was named top answer ih => exact ih inside
    | waited before others ih => exact ih inside

/-- A source, a sink and the built-in operators. -/
def equipped : Network := { shortcut with engine := .plain true }

/-- A chain that joins what a source gives with what the source gave before. -/
def echoing : Chain where
  id := "echoing"
  expected := .command
  steps := [.source "form", .store ⟨.request, "seen"⟩,
    .merge ["form"] [⟨.request, "seen"⟩] "concat_merge" [], .sink "shell"]
  steps_ne := nofun

/-- What is stored, read again and joined is delivered three hops on. -/
theorem delivers_lineage_echoing :
    ∃ log w r delivered outcomes value,
      Course equipped (Spares echoing ⟨"1", none⟩) (fresh echoing ⟨"1", none⟩ "1") log w r ∧
        .delivered echoing.lastIndex delivered outcomes ∈ log ∧ delivered.hops = 3 ∧
          delivered = value.forward ∧ IsLineage equipped.engine echoing log value := by
  have begins : Course equipped (Spares echoing ⟨"1", none⟩) (fresh echoing ⟨"1", none⟩ "1") [] _ _ :=
    .started (w := {}) rfl
  have handed : ∃ log w r delivered outcomes,
      Course equipped (Spares echoing ⟨"1", none⟩) (fresh echoing ⟨"1", none⟩ "1") log w r ∧
        .delivered echoing.lastIndex delivered outcomes ∈ log ∧ delivered.hops = 3 :=
    ⟨_, _, _, _, [.ok _],
      ((((begins.turned rfl).turned rfl).turned rfl).turned rfl).turned rfl,
      List.mem_append_right _ List.mem_cons_self, rfl⟩
  obtain ⟨log, w, r, delivered, outcomes, way, inside, hops⟩ := handed
  have uses : echoing.UsesLibrary equipped.engine := by
    intro id inside
    obtain rfl := List.mem_singleton.mp inside
    exact ⟨_, List.mem_of_find?_eq_some (p := fun operator => operator.id = "concat_merge") rfl,
      rfl, rfl⟩
  obtain ⟨value, same, lineage⟩ := (delivers_lineage rfl uses way).2 delivered outcomes inside
  exact ⟨log, w, r, delivered, outcomes, value, way, inside, hops, same, lineage⟩

end TaintFlow.Run
