import TaintFlow.Chain.Validation
import TaintFlow.Proofs.Data.Except

/-!
# The depth before each step

Validation walks through the steps of a chain and keeps count of the active
values.  `depthBefore` is the count that it has reached when it comes to a step.
A chain is accepted if it begins and ends as it should and the walk reaches its
end.
-/

namespace TaintFlow.Chain

/-- The number of active values before the step at an index, as a walk counts them; none if the
walk does not get there. -/
def depthIn (network : Network) (depth : Nat) : List Step → Nat → Option Nat
  | _, 0 => some depth
  | [], _ + 1 => none
  | step :: rest, i + 1 =>
    match depthAfter network rest.isEmpty depth step with
    | .ok depth => depthIn network depth rest i
    | .error _ => none

/-- The number of active values before a step of a chain. -/
def depthBefore (network : Network) (c : Chain) (i : Nat) : Option Nat :=
  depthIn network 0 c.steps i

variable {network : Network} {c : Chain}

/-! ## What a step needs -/

/-- What a step needs of the registered components and of the number of active values before it, and
the number after it. -/
def Allows (network : Network) (isLast : Bool) (depth after : Nat) : Step → Prop
  | .source id => network.sources.has id = true ∧ after = depth + 1
  | .load _ => after = depth + 1
  | .merge sources loads id _ =>
    (∀ source ∈ sources, network.sources.has source = true) ∧
      (∃ operator, network.engine.operators.find? id = some operator ∧
        operator.accepts (sources.length + loads.length) = true) ∧ after = depth + 1
  | .relay id _ =>
    ∃ operator, network.engine.operators.find? id = some operator ∧ operator.needed ≤ depth ∧
      after = depth - operator.arity.getD depth + 1
  | .store _ => 1 ≤ depth ∧ after = depth
  | .fanout sinks =>
    1 ≤ depth ∧ (∀ sink ∈ sinks, network.sinks.has sink = true) ∧ after = depth
  | .sink id => 1 ≤ depth ∧ isLast = true ∧ network.sinks.has id = true ∧ after = depth

theorem requireSources_eq_ok {ids : List String} :
    requireSources network ids = .ok () ↔ ∀ id ∈ ids, network.sources.has id = true := by
  induction ids with
  | nil => exact ⟨fun _ _ inside => absurd inside List.not_mem_nil, fun _ => rfl⟩
  | cons id rest ih =>
      rw [requireSources, List.forall_mem_cons]
      split
      · rename_i there
        rw [ih]
        exact ⟨fun all => ⟨there, all⟩, And.right⟩
      · rename_i missing
        exact ⟨nofun, fun all => absurd all.1 missing⟩

theorem requireSinks_eq_ok {ids : List String} :
    requireSinks network ids = .ok () ↔ ∀ id ∈ ids, network.sinks.has id = true := by
  induction ids with
  | nil => exact ⟨fun _ _ inside => absurd inside List.not_mem_nil, fun _ => rfl⟩
  | cons id rest ih =>
      rw [requireSinks, List.forall_mem_cons]
      split
      · rename_i there
        rw [ih]
        exact ⟨fun all => ⟨there, all⟩, And.right⟩
      · rename_i missing
        exact ⟨nofun, fun all => absurd all.1 missing⟩

theorem requireOperator_eq_ok {id : String} {operator : Operator} :
    requireOperator network id = .ok operator ↔
      network.engine.operators.find? id = some operator := by
  unfold requireOperator
  split
  · rename_i found
    rw [found, Except.ok.injEq, Option.some.injEq]
  · rename_i missing
    rw [missing]
    constructor
    · intro required
      cases required
    · intro found
      cases found

/-- The count after a step is an answer exactly if the step has what it needs. -/
theorem depthAfter_eq_ok {isLast : Bool} {depth after : Nat} {step : Step} :
    depthAfter network isLast depth step = .ok after ↔ Allows network isLast depth after step := by
  cases step with
  | source id =>
      unfold depthAfter Allows
      simp only [Except.check_eq_ok, Except.pure_eq_ok, requireSources_eq_ok, List.mem_singleton,
        forall_eq]
  | load origin => exact Except.pure_eq_ok
  | merge sources loads id params =>
      unfold depthAfter Allows
      dsimp only
      rw [Except.check_eq_ok, requireSources_eq_ok, Except.bind_eq_ok]
      simp only [requireOperator_eq_ok]
      refine and_congr_right fun _ => ?_
      constructor
      · rintro ⟨operator, found, counted⟩
        split at counted
        · rename_i accepts
          exact ⟨⟨operator, found, accepts⟩, Except.pure_eq_ok.mp counted⟩
        · exact (Except.throw_eq_ok.mp counted).elim
      · rintro ⟨⟨operator, found, accepts⟩, rfl⟩
        refine ⟨operator, found, ?_⟩
        rw [if_pos accepts]
        rfl
  | relay id params =>
      unfold depthAfter Allows
      dsimp only
      rw [Except.bind_eq_ok]
      simp only [requireOperator_eq_ok]
      refine exists_congr fun operator => and_congr_right fun _ => ?_
      by_cases few : depth < operator.needed
      · rw [if_pos few, Except.throw_bind_eq_ok, false_iff]
        exact fun allows => absurd allows.1 (Nat.not_le_of_lt few)
      · have enough := Nat.le_of_not_lt few
        rw [if_neg few]
        cases operator.arity with
        | none =>
            simp only [Except.pure_eq_ok, Option.getD_none, Nat.sub_self, enough, true_and]
        | some n => simp only [Except.pure_eq_ok, Option.getD_some, enough, true_and]
  | store target =>
      unfold depthAfter Allows
      dsimp only
      by_cases none : depth < 1
      · rw [if_pos none, Except.throw_eq_ok, false_iff]
        exact fun allows => absurd allows.1 (Nat.not_le_of_lt none)
      · rw [if_neg none]
        simp only [Except.pure_eq_ok, Nat.le_of_not_lt none, true_and]
  | fanout sinks =>
      unfold depthAfter Allows
      dsimp only
      by_cases none : depth < 1
      · rw [if_pos none, Except.throw_bind_eq_ok, false_iff]
        exact fun allows => absurd allows.1 (Nat.not_le_of_lt none)
      · rw [if_neg none, Except.check_eq_ok, requireSinks_eq_ok, Except.pure_eq_ok]
        simp only [Nat.le_of_not_lt none, true_and]
  | sink id =>
      unfold depthAfter Allows
      dsimp only
      by_cases none : depth < 1
      · rw [if_pos none, Except.throw_bind_eq_ok, false_iff]
        exact fun allows => absurd allows.1 (Nat.not_le_of_lt none)
      · rw [if_neg none]
        cases isLast with
        | false =>
            rw [Bool.not_false, if_pos rfl, Except.throw_bind_eq_ok, false_iff]
            exact fun allows => absurd allows.2.1 Bool.false_ne_true
        | true =>
            rw [Bool.not_true, if_neg Bool.false_ne_true, Except.check_eq_ok, requireSinks_eq_ok,
              Except.pure_eq_ok]
            simp only [List.mem_singleton, forall_eq, Nat.le_of_not_lt none, true_and]

theorem Allows.produces {isLast : Bool} {after : Nat} {step : Step}
    (allows : Allows network isLast 0 after step) : step.kind.produces = true := by
  cases step with
  | source id => rfl
  | load origin => rfl
  | merge sources loads id params => rfl
  | relay id params =>
      obtain ⟨operator, _, enough, _⟩ := allows
      exact absurd operator.needed_pos (Nat.not_lt_of_le enough)
  | store target => exact absurd allows.1 (Nat.not_succ_le_zero 0)
  | fanout sinks => exact absurd allows.1 (Nat.not_succ_le_zero 0)
  | sink id => exact absurd allows.1 (Nat.not_succ_le_zero 0)

/-! ## Accepted chains -/

/-- A walk gets past a step if it gets there and the step can be done. -/
theorem depthIn_succ {depth after i : Nat} {steps : List Step} :
    depthIn network depth steps (i + 1) = some after ↔
      ∃ before step, depthIn network depth steps i = some before ∧ steps[i]? = some step ∧
        depthAfter network (i + 1 = steps.length) before step = .ok after := by
  induction i generalizing depth steps with
  | zero =>
      cases steps with
      | nil => simp [depthIn]
      | cons step rest =>
          have last : rest.isEmpty = decide (0 + 1 = (step :: rest).length) := by
            cases rest <;> simp
          simp only [depthIn, last]
          constructor
          · intro reached
            split at reached
            · rename_i next done
              exact ⟨depth, step, rfl, rfl, Option.some.inj reached ▸ done⟩
            · exact nomatch reached
          · rintro ⟨_, _, here, same, done⟩
            obtain rfl := Option.some.inj here
            obtain rfl := Option.some.inj same
            simp only [done]
  | succ i ih =>
      cases steps with
      | nil => simp [depthIn]
      | cons step rest =>
          have last : decide (i + 1 + 1 = (step :: rest).length) = decide (i + 1 = rest.length) := by
            simp
          simp only [depthIn, List.getElem?_cons_succ, last]
          cases done : depthAfter network rest.isEmpty depth step with
          | error flaw => simp
          | ok next => exact ih

theorem walk_eq_ok {index depth final : Nat} {steps : List Step} :
    walk network index depth steps = .ok final ↔
      depthIn network depth steps steps.length = some final := by
  induction steps generalizing index depth with
  | nil =>
      simp only [walk, List.length_nil, depthIn, Except.ok.injEq, Option.some.injEq]
  | cons step rest ih =>
      simp only [walk, List.length_cons, depthIn]
      cases depthAfter network rest.isEmpty depth step with
      | error flaw => simp
      | ok next => exact ih

/-- A walk that gets to a step gets to all steps before it. -/
theorem depthIn_of_le {depth i n after : Nat} {steps : List Step} (before : i ≤ n)
    (reached : depthIn network depth steps n = some after) :
    ∃ found, depthIn network depth steps i = some found := by
  induction n generalizing after with
  | zero =>
      obtain rfl := Nat.le_zero.mp before
      exact ⟨after, reached⟩
  | succ n ih =>
      rcases Nat.le_succ_iff.mp before with less | rfl
      · obtain ⟨_, _, there, _⟩ := depthIn_succ.mp reached
        exact ih less there
      · exact ⟨after, reached⟩

/-- A chain is accepted if it begins with a value and ends at sinks and the walk gets through. -/
theorem validate_eq_ok :
    validate network c = .ok () ↔ c.first.kind.produces = true ∧ c.last.kind.concludes = true ∧
      ∃ final, depthBefore network c c.steps.length = some final := by
  unfold validate flaw? depthBefore
  cases c.first.kind.produces with
  | false => simp
  | true =>
      cases c.last.kind.concludes with
      | false => simp
      | true =>
          cases walked : walk network 0 0 c.steps with
          | ok final =>
              simp only [Bool.not_true, Bool.false_eq_true, if_false, true_and, true_iff]
              exact ⟨final, walk_eq_ok.mp walked⟩
          | error found =>
              obtain ⟨index, flaw⟩ := found
              simp only [Bool.not_true, Bool.false_eq_true, if_false, true_and]
              constructor
              · exact nofun
              · rintro ⟨final, reached⟩
                rw [walk_eq_ok.mpr reached] at walked
                exact nomatch walked

theorem steps_lastIndex (c : Chain) : c.steps[c.lastIndex]? = some c.last := by
  unfold lastIndex last
  rw [List.getLast_eq_getElem, List.getElem?_eq_getElem]

theorem length_eq (c : Chain) : c.steps.length = c.lastIndex + 1 := by
  have some_ := List.length_pos_iff.mpr c.steps_ne
  unfold lastIndex
  omega

theorem le_lastIndex {i : Nat} {step : Step} (here : c.steps[i]? = some step) :
    i ≤ c.lastIndex := by
  obtain ⟨less, _⟩ := List.getElem?_eq_some_iff.mp here
  have := c.length_eq
  omega

theorem mem_operators {i : Nat} {step : Step} {id : String} (here : c.steps[i]? = some step)
    (applies : step.operator? = some id) : id ∈ c.operators :=
  List.mem_filterMap.mpr ⟨step, List.mem_of_getElem? here, applies⟩

theorem first_produces {final : Nat}
    (reached : depthBefore network c c.steps.length = some final) :
    c.first.kind.produces = true := by
  have some_ : 1 ≤ c.steps.length := List.length_pos_iff.mpr c.steps_ne
  obtain ⟨after, there⟩ := depthIn_of_le some_ reached
  obtain ⟨before, step, begins, here, done⟩ := depthIn_succ.mp there
  obtain rfl : 0 = before := Option.some.inj begins
  have same : c.first = step := by
    have head : c.steps[0]? = some c.first := by
      unfold first
      rw [← List.head?_eq_getElem?, List.head?_eq_some_head]
    exact Option.some.inj (head.symm.trans here)
  rw [same]
  exact (depthAfter_eq_ok.mp done).produces

/-- A chain whose walk gets to its last step is accepted if that step can be done and ends the
chain. -/
theorem valid_of_last {depth after : Nat}
    (reached : depthBefore network c c.lastIndex = some depth)
    (allows : Allows network true depth after c.last) (concludes : c.last.kind.concludes = true) :
    c.validate network = .ok () := by
  have past : depthBefore network c c.steps.length = some after := by
    rw [c.length_eq]
    refine depthIn_succ.mpr ⟨depth, c.last, reached, c.steps_lastIndex, ?_⟩
    rw [depthAfter_eq_ok, decide_eq_true c.length_eq.symm]
    exact allows
  exact validate_eq_ok.mpr ⟨first_produces past, concludes, after, past⟩

/-- The walk through an accepted chain gets to every step and past it. -/
theorem depthAfter_of_valid (valid : validate network c = .ok ()) {i : Nat} {step : Step}
    (here : c.steps[i]? = some step) :
    ∃ before after, depthBefore network c i = some before ∧
      depthAfter network (i + 1 = c.steps.length) before step = .ok after ∧
      depthBefore network c (i + 1) = some after := by
  obtain ⟨_, _, final, reached⟩ := validate_eq_ok.mp valid
  have past : i + 1 ≤ c.steps.length := (List.getElem?_eq_some_iff.mp here).1
  obtain ⟨after, there⟩ := depthIn_of_le past reached
  obtain ⟨before, step', earlier, here', done⟩ := depthIn_succ.mp there
  obtain rfl := Option.some.inj (here.symm.trans here')
  exact ⟨before, after, earlier, done, there⟩

/-- In an accepted chain a single sink stands last. -/
theorem sink_is_last (valid : validate network c = .ok ()) {i : Nat} {step : Step}
    (here : c.steps[i]? = some step) (sink : step.kind = .sink) : i = c.lastIndex := by
  obtain ⟨before, after, _, done, _⟩ := depthAfter_of_valid valid here
  have allows := depthAfter_eq_ok.mp done
  cases step with
  | sink id =>
      have last := of_decide_eq_true allows.2.1
      have := c.length_eq
      omega
  | source id => exact nomatch sink
  | relay id params => exact nomatch sink
  | store target => exact nomatch sink
  | load origin => exact nomatch sink
  | fanout sinks => exact nomatch sink
  | merge sources loads id params => exact nomatch sink

/-- An accepted chain ends at sinks. -/
theorem last_concludes (valid : validate network c = .ok ()) :
    (∃ id, c.last = .sink id) ∨ ∃ sinks, c.last = .fanout sinks := by
  obtain ⟨_, concludes, _⟩ := validate_eq_ok.mp valid
  cases last : c.last with
  | sink id => exact .inl ⟨id, rfl⟩
  | fanout sinks => exact .inr ⟨sinks, rfl⟩
  | source id => simp [last, Step.kind, StepKind.concludes] at concludes
  | relay id params => simp [last, Step.kind, StepKind.concludes] at concludes
  | store target => simp [last, Step.kind, StepKind.concludes] at concludes
  | load origin => simp [last, Step.kind, StepKind.concludes] at concludes
  | merge sources loads id params => simp [last, Step.kind, StepKind.concludes] at concludes

/-! ## Registries that have what others have -/

/-- What is registered in one network is registered in the other, and takes as many inputs there. -/
structure Within (network other : Network) : Prop where
  sources : ∀ id, network.sources.has id = true → other.sources.has id = true
  sinks : ∀ id, network.sinks.has id = true → other.sinks.has id = true
  operators : ∀ {id operator}, network.engine.operators.find? id = some operator →
    ∃ twin, other.engine.operators.find? id = some twin ∧ twin.arity = operator.arity

/-- What a step needs it also has in a larger network. -/
theorem Within.allows {other : Network} (within_ : Within network other) {isLast : Bool}
    {depth after : Nat} {step : Step} (allows : Allows network isLast depth after step) :
    Allows other isLast depth after step := by
  cases step with
  | source id => exact ⟨within_.sources id allows.1, allows.2⟩
  | load origin => exact allows
  | merge sources loads id params =>
      obtain ⟨known, ⟨operator, found, accepts⟩, after⟩ := allows
      obtain ⟨twin, there, arity⟩ := within_.operators found
      refine ⟨fun source inside => within_.sources source (known source inside),
        ⟨twin, there, ?_⟩, after⟩
      unfold Operator.accepts at accepts ⊢
      rw [arity]
      exact accepts
  | relay id params =>
      obtain ⟨operator, found, enough, after⟩ := allows
      obtain ⟨twin, there, arity⟩ := within_.operators found
      refine ⟨twin, there, ?_, ?_⟩
      · unfold Operator.needed at enough ⊢
        rw [arity]
        exact enough
      · rw [arity]
        exact after
  | store target => exact allows
  | fanout sinks =>
      exact ⟨allows.1, fun sink inside => within_.sinks sink (allows.2.1 sink inside), allows.2.2⟩
  | sink id => exact ⟨allows.1, allows.2.1, within_.sinks id allows.2.2.1, allows.2.2.2⟩

/-- A count of active values stands in a larger network. -/
theorem Within.depthBefore {other : Network} (within_ : Within network other) {i depth : Nat}
    (reached : depthBefore network c i = some depth) : depthBefore other c i = some depth := by
  induction i generalizing depth with
  | zero => exact reached
  | succ i ih =>
      obtain ⟨before, step, earlier, here, done⟩ := depthIn_succ.mp reached
      refine depthIn_succ.mpr ⟨before, step, ih earlier, here, ?_⟩
      exact depthAfter_eq_ok.mpr (within_.allows (depthAfter_eq_ok.mp done))

/-- A chain that is accepted is accepted in a larger network. -/
theorem Within.validate {other : Network} (within_ : Within network other)
    (valid : validate network c = .ok ()) : c.validate other = .ok () := by
  obtain ⟨produces, concludes, final, reached⟩ := validate_eq_ok.mp valid
  exact validate_eq_ok.mpr ⟨produces, concludes, final, within_.depthBefore reached⟩

/-- Two networks with the same component ids and the same numbers of inputs. -/
structure SameShape (network other : Network) : Prop where
  sources : ∀ id, other.sources.has id = network.sources.has id
  sinks : ∀ id, other.sinks.has id = network.sinks.has id
  operators : ∀ id, (other.engine.operators.find? id).map Operator.arity =
    (network.engine.operators.find? id).map Operator.arity

theorem SameShape.symm {other : Network} (same : SameShape network other) :
    SameShape other network where
  sources id := (same.sources id).symm
  sinks id := (same.sinks id).symm
  operators id := (same.operators id).symm

theorem SameShape.within {other : Network} (same : SameShape network other) :
    Within network other where
  sources id there := (same.sources id).trans there
  sinks id there := (same.sinks id).trans there
  operators := by
    intro id operator found
    have shape := same.operators id
    rw [found] at shape
    obtain ⟨twin, there, arity⟩ := Option.map_eq_some_iff.mp shape
    exact ⟨twin, there, arity⟩

/-- The count before each step depends on the shape only. -/
theorem SameShape.depthBefore {other : Network} (same : SameShape network other) {i depth : Nat}
    (reached : depthBefore network c i = some depth) : depthBefore other c i = some depth :=
  same.within.depthBefore reached

/-- So does whether a chain is accepted. -/
theorem SameShape.validate {other : Network} (same : SameShape network other)
    (valid : validate network c = .ok ()) : c.validate other = .ok () :=
  same.within.validate valid

end TaintFlow.Chain
