import TaintFlow.Proofs.Data.Assoc
import TaintFlow.Proofs.Run.Delivery

/-!
# The depth of a run

Validation counts active values without having any.  The count that it has
before a step is the number of active values of every run that comes to the
step, whatever the components do and whatever happens in between.

A merge collects its inputs over several turns.  `Gathers` says what it has
collected when a run comes to a turn.
-/

namespace TaintFlow.Run

variable {network : Network} {rely : World → World → Prop} {origin : Run} {log : List Event}
  {w : World} {r : Run}

/-! ## What merges gather -/

/-- Gathered values belong to the merge that is next: first those of its sources, all of which are
registered, and then those that it reads from the store. -/
structure Gathers (network : Network) (r : Run) : Prop where
  merge : ∀ {sources loads operator params},
    r.chain.steps[r.next]? = some (.merge sources loads operator params) →
      (∀ id ∈ sources.take r.gathered.length, network.sources.has id = true) ∧
      (r.loaded = false → r.gathered.length ≤ sources.length) ∧
      (r.loaded = true → r.gathered.length = sources.length + loads.length)
  other : (∀ sources loads operator params,
    r.chain.steps[r.next]? ≠ some (.merge sources loads operator params)) →
      r.gathered = [] ∧ r.loaded = false

theorem Gathers.of_nil (nil : r.gathered = []) (notLoaded : r.loaded = false) :
    Gathers network r where
  merge := by
    intro sources loads operator params _
    refine ⟨?_, ?_, ?_⟩
    · rw [nil]
      exact fun _ inside => absurd inside List.not_mem_nil
    · rw [nil]
      exact fun _ => Nat.zero_le _
    · rw [notLoaded]
      exact nofun
  other := fun _ => ⟨nil, notLoaded⟩

theorem Gathers.nil_of_other {step : Step} (gathers : Gathers network r)
    (here : r.chain.steps[r.next]? = some step) (other : step.kind ≠ .merge) :
    r.gathered = [] ∧ r.loaded = false := by
  refine gathers.other fun sources loads operator params merge => ?_
  obtain rfl := Option.some.inj (here.symm.trans merge)
  exact other rfl

/-- A merge that has asked all its sources has an input for each source and each key. -/
theorem Gathers.length_eq {sources : List String} {loads : List StoreRef} {operator : String}
    {params : Params} {inputs : List Value} {r' : Run} (gathers : Gathers network r)
    (here : r.chain.steps[r.next]? = some (.merge sources loads operator params))
    (asked : sources[r.gathered.length]? = none)
    (read : mergeInputs network w.store r loads = .ok (inputs, r')) :
    inputs.length = sources.length + loads.length ∧
      ∀ id ∈ sources, network.sources.has id = true := by
  obtain ⟨registered, open_, closed⟩ := gathers.merge here
  have all := List.getElem?_eq_none_iff.mp asked
  obtain ⟨found, rfl, live, _, none, _⟩ := mergeInputs_eq_ok read
  constructor
  · rw [List.length_append]
    cases loaded : r.loaded with
    | true =>
        rw [none loaded, closed loaded]
        rfl
    | false =>
        rw [(live loaded).length_eq, Nat.le_antisymm (open_ loaded) all]
  · rw [List.take_of_length_le all] at registered
    exact registered

/-- One more source of a merge has given a value. -/
theorem Gathers.collect {sources : List String} {loads : List StoreRef} {operator : String}
    {params : Params} {id : String} {value : Value} (gathers : Gathers network r)
    (here : r.chain.steps[r.next]? = some (.merge sources loads operator params))
    (asked : sources[r.gathered.length]? = some id)
    (registered : network.sources.has id = true) :
    Gathers network ((r.entered value.labels).collect value) where
  merge := by
    intro sources' loads' operator' params' here'
    obtain ⟨rfl, rfl, rfl, rfl⟩ := Step.merge.inj (Option.some.inj (here.symm.trans here'))
    obtain ⟨before, _, closed⟩ := gathers.merge here
    obtain ⟨less, _⟩ := List.getElem?_eq_some_iff.mp asked
    have count : ((r.entered value.labels).collect value).gathered.length =
        r.gathered.length + 1 := List.length_append
    rw [count]
    refine ⟨?_, fun _ => less, ?_⟩
    · intro one inside
      rw [List.take_add_one, asked] at inside
      rcases List.mem_append.mp inside with earlier | now
      · exact before one earlier
      · rw [List.mem_singleton.mp now]
        exact registered
    · intro loaded
      have := closed loaded
      omega
  other := fun none => absurd here (none _ _ _ _)

theorem Gathers.readAhead {sources : List String} {loads : List StoreRef} {operator : String}
    {params : Params} {inputs : List Value} {r' : Run} (labels : LabelSet)
    (gathers : Gathers network r)
    (here : r.chain.steps[r.next]? = some (.merge sources loads operator params))
    (asked : sources[r.gathered.length]? = none)
    (read : mergeInputs network w.store r loads = .ok (inputs, r')) :
    Gathers network { r.entered labels with gathered := inputs, loaded := true } where
  merge := by
    intro sources' loads' operator' params' here'
    obtain ⟨rfl, rfl, rfl, rfl⟩ := Step.merge.inj (Option.some.inj (here.symm.trans here'))
    obtain ⟨count, registered⟩ := gathers.length_eq here asked read
    exact ⟨fun id inside => registered id (List.mem_of_mem_take inside), nofun, fun _ => count⟩
  other := fun none => absurd here (none _ _ _ _)

/-- A step that leaves its run going leaves nothing gathered. -/
theorem Gathers.nil_of_passes {w' : World} {r' : Run} (gathers : Gathers network r)
    (deed : Deed network w r w' r') (passes : Passes network w r r') :
    r'.gathered = [] ∧ r'.loaded = false := by
  cases deed with
  | took here => exact gathers.nil_of_other here nofun
  | relayed here => exact gathers.nil_of_other here nofun
  | stored here => exact gathers.nil_of_other here nofun
  | loaded here => exact gathers.nil_of_other here nofun
  | merged here => exact ⟨rfl, rfl⟩
  | handedOn here => exact gathers.nil_of_other here nofun
  | gathered collects => exact absurd collects.next passes.next_ne
  | judged judges => exact absurd judges.next passes.next_ne
  | ended ends => exact absurd ends.next passes.next_ne

/-- Along a course gathered values belong to the merge that is next. -/
theorem Course.gathers (nil : origin.gathered = []) (notLoaded : origin.loaded = false)
    (way : Course network rely origin log w r) (running : r.state = .running) :
    Gathers network r := by
  refine way.keeps (fun _ r => r.state = .running → Gathers network r) ?_ ?_ ?_ ?_ running
  · exact fun _ _ => .of_nil nil notLoaded
  · intro log w r w' r' _ before ih deed running
    have gathers := ih before
    rcases deed.passes_or_collects before running with passes | ⟨_, _, collects⟩
    · obtain ⟨nil, notLoaded⟩ := gathers.nil_of_passes deed passes
      exact .of_nil nil notLoaded
    · obtain ⟨sources, loads, operator, params, here, asked, gave⟩ := collects.asked
      obtain ⟨s, _, found, _⟩ := World.callSource_eq_ok gave
      rw [collects.same]
      exact gathers.collect here asked (Assoc.has_of_find? found)
  · intro log w r sources loads operator params inputs r' _ before ih here asked read _
    exact (ih before).readAhead _ here asked read
  · intro log w r calls _ before ih _
    exact ⟨(ih before).merge, (ih before).other⟩

/-! ## The depth -/

theorem length_collapse {count : Nat} (output : Value) (enough : count ≤ r.stack.length) :
    (r.collapse count output).stack.length = r.stack.length - count + 1 := by
  unfold collapse
  rw [List.length_append, List.length_take]
  simp only [List.length_singleton]
  omega

theorem needed_le {operator : Operator} {held : Nat} (some_ : 0 < operator.arity.getD held)
    (enough : operator.arity.getD held ≤ held) : operator.needed ≤ held := by
  unfold Operator.needed
  cases arity : operator.arity with
  | none =>
      rw [arity] at some_
      exact some_
  | some n =>
      rw [arity] at enough
      exact enough

theorem one_le_length_of_top {value : Value} (top : r.top? = some value) : 1 ≤ r.stack.length := by
  unfold top? at top
  cases stack : r.stack with
  | nil => simp [stack] at top
  | cons first rest => exact Nat.succ_le_succ (Nat.zero_le _)

theorem exists_top (some_ : 1 ≤ r.stack.length) : ∃ value, r.top? = some value := by
  unfold top?
  cases stack : r.stack with
  | nil =>
      rw [stack] at some_
      exact absurd some_ (Nat.not_succ_le_zero 0)
  | cons first rest => exact ⟨_, List.getLast?_eq_some_getLast (List.cons_ne_nil first rest)⟩

/-- Sinks that have all accepted are all registered. -/
theorem registered_of_answers {timeout : Option Timeout} {value : Value} {sinks : List String}
    {outcomes : List (Except Fault SinkResult)}
    (answers : List.Forall₂ (Answer network timeout value) sinks (outcomes.map some))
    (accepted : Accepted outcomes) : ∀ id ∈ sinks, network.sinks.has id = true := by
  rw [List.forall₂_map_right_iff] at answers
  induction answers with
  | nil => exact fun _ inside => absurd inside List.not_mem_nil
  | @cons id outcome sinks outcomes said rest ih =>
      intro one inside
      rcases List.mem_cons.mp inside with rfl | inRest
      · obtain ⟨w, at_, said⟩ := said
        cases outcome with
        | error fault => exact nomatch accepted _ List.mem_cons_self
        | ok result =>
            obtain ⟨⟨s, found⟩, _⟩ := World.callSink_eq_ok (Prod.ext said rfl)
            exact Assoc.has_of_find? found
      · exact ih (fun other inOutcomes => accepted other (List.mem_cons_of_mem _ inOutcomes)) one
          inRest

/-- An operator that was applied is registered and takes as many inputs as it got. -/
theorem accepts_of_applied {at_ : World.Location} {id : String} {inputs : List Value}
    {params : Params} {step : Option Int} {output : Value} {w' : World}
    (applied : w.applyOperator network at_ id inputs params step = (some (.ok output), w')) :
    ∃ operator, network.engine.operators.find? id = some operator ∧
      network.engine.Makes inputs params w.store operator output := by
  have outcome := World.applyOperator_outcome w network at_ id inputs params step
  rw [applied] at outcome
  exact Engine.apply_eq_ok.mp outcome.symm

/-- A step that a run has passed is one that validation allows: it has what it needs, and leaves as
many active values as validation counts. -/
theorem Deed.allows {w' : World} {r' : Run} (deed : Deed network w r w' r')
    (passes : Passes network w r r') (gathers : Gathers network r) (poised : Poised network r)
    {isLast : Bool} :
    ∃ step, r.chain.steps[r.next]? = some step ∧
      Chain.Allows network isLast r.stack.length r'.stack.length step := by
  cases deed with
  | took here gave events =>
      obtain ⟨s, _, found, _⟩ := World.callSource_eq_ok gave
      exact ⟨_, here, Assoc.has_of_find? found, List.length_append⟩
  | relayed here found taken some_ enough applied events =>
      subst taken
      exact ⟨_, here, _, found, needed_le some_ enough, length_collapse _ enough⟩
  | stored here top place events =>
      exact ⟨_, here, one_le_length_of_top top, rfl⟩
  | loaded here read events => exact ⟨_, here, List.length_append⟩
  | merged here asked read applied events =>
      obtain ⟨count, registered⟩ := gathers.length_eq here asked read
      obtain ⟨operator, found, made⟩ := accepts_of_applied applied
      refine ⟨_, here, registered, ⟨operator, found, ?_⟩, List.length_append⟩
      rw [← count]
      exact made.accepts
  | handedOn here onTheWay top handed heard store events =>
      have answers := poised.answers here top handed
      exact ⟨_, here, one_le_length_of_top top,
        registered_of_answers answers (gatherSinks_eq_ok_none heard), rfl⟩
  | gathered collects => exact absurd collects.next passes.next_ne
  | judged judges => exact absurd judges.next passes.next_ne
  | ended ends => exact absurd ends.next passes.next_ne

/-- In every run, whatever else happens, the number of active values before a step is the depth that
validation counts there. -/
theorem Course.depthBefore_eq (next : origin.next = 0) (stack : origin.stack = [])
    (nil : origin.gathered = []) (notLoaded : origin.loaded = false) (calls : origin.calls = [])
    (way : Course network rely origin log w r) (running : r.state = .running) :
    Chain.depthBefore network r.chain r.next = some r.stack.length := by
  refine way.keeps (fun _ r => r.state = .running →
    Chain.depthBefore network r.chain r.next = some r.stack.length) ?_ ?_ ?_ ?_ running
  · intro _ _
    show Chain.depthBefore network origin.chain origin.next = some origin.stack.length
    rw [next, stack]
    rfl
  · intro log w r w' r' before' before ih deed running
    have depth := ih before
    rcases deed.passes_or_collects before running with passes | ⟨_, _, collects⟩
    · obtain ⟨step, here, allows⟩ := deed.allows passes (before'.gathers nil notLoaded before)
        (before'.poised calls before)
      rw [passes.chain, passes.next]
      exact Chain.depthIn_succ.mpr ⟨_, step, depth, here, Chain.depthAfter_eq_ok.mpr allows⟩
    · rw [collects.same]
      exact depth
  · intro _ _ _ _ _ _ _ _ _ _ _ ih _ _ _ running
    exact ih running
  · intro _ _ _ _ _ _ ih running
    exact ih running

end TaintFlow.Run
