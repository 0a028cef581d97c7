import TaintFlow.Proofs.Run.Depth

/-!
# Coverage of origins

If all operators of a chain preserve labels, no label that has entered a run is
lost: it is on one of the active values or on an input of the merge that is
being gathered.  A run that comes to its last step with a single active value
therefore delivers all labels that have entered it, and completes if its sinks
accept.
-/

namespace TaintFlow.Run

variable {network : Network} {rely : World → World → Prop} {origin : Run} {log : List Event}
  {w : World} {r : Run}

/-- All operators that a chain applies are registered as preserving, if they are registered. -/
def Preserves (network : Network) (c : Chain) : Prop :=
  ∀ id ∈ c.operators, ∀ operator, network.engine.operators.find? id = some operator →
    operator.preserving = true

/-- The labels of all values that a run holds. -/
def held (r : Run) : LabelSet := Value.unionLabels (r.stack ++ r.gathered)

/-- Every label that has entered a run is on a value that it holds. -/
def Covered (r : Run) : Prop := r.origins ⊆ r.held

/-! ## Labels that are held -/

/-- A run holds the labels of its active values and of what it has gathered. -/
theorem mem_held {label : Label} :
    label ∈ r.held ↔ label ∈ Value.unionLabels r.stack ∨ label ∈ Value.unionLabels r.gathered := by
  unfold held
  rw [Value.unionLabels_append, SortedSet.mem_union]

/-- What is covered stays covered if what is held is kept and what enters is held too. -/
theorem Covered.of_kept {r' : Run} {new : LabelSet} (covered : Covered r)
    (origins : r'.origins = r.origins ∪ new) (kept : r.held ⊆ r'.held) (added : new ⊆ r'.held) :
    Covered r' := by
  unfold Covered at covered ⊢
  rw [SortedSet.subset_def] at covered kept added ⊢
  intro label inside
  rw [origins, SortedSet.mem_union] at inside
  rcases inside with old | entered
  · exact kept label (covered label old)
  · exact added label entered

/-- An operator of a chain that preserves labels keeps all labels of its inputs. -/
theorem Preserves.kept (preserves : Preserves network r.chain) {step : Step} {id : String}
    (here : r.chain.steps[r.next]? = some step) (applies : step.operator? = some id)
    {at_ : World.Location} {inputs : List Value} {params : Params} {index : Option Int}
    {output : Value} {w' : World}
    (applied : w.applyOperator network at_ id inputs params index = (some (.ok output), w')) :
    Value.unionLabels inputs ⊆ output.labels := by
  obtain ⟨operator, found, made⟩ := accepts_of_applied applied
  exact made.kept (preserves id (Chain.mem_operators here applies) operator found)

/-- The active values are those that an operator leaves alone and those that it takes. -/
theorem mem_unionLabels_stack (r : Run) (count : Nat) {label : Label} :
    label ∈ Value.unionLabels r.stack ↔
      label ∈ Value.unionLabels (r.stack.take (r.stack.length - count)) ∨
        label ∈ Value.unionLabels (r.youngest count) := by
  unfold youngest
  rw [← SortedSet.mem_union, ← Value.unionLabels_append, List.take_append_drop]

/-- The labels of what a merge reads are the labels that enter the run with it. -/
theorem entrants_readings (loads : List StoreRef) (found : List Value)
    (count : found.length = loads.length) :
    entrants (List.zipWith Event.read loads found) = Value.unionLabels found := by
  induction loads generalizing found with
  | nil =>
      rw [List.length_eq_zero_iff.mp count]
      rfl
  | cons origin rest ih =>
      cases found with
      | nil => exact nomatch count
      | cons value found =>
          rw [List.zipWith_cons_cons, entrants_read, Value.unionLabels_cons,
            ih found (Nat.succ.inj count)]

/-- The inputs of a merge carry what was gathered before and what enters with the stored ones. -/
theorem mem_unionLabels_inputs {store : Store} {r' : Run} {loads : List StoreRef}
    {inputs : List Value} (read : mergeInputs network store r loads = .ok (inputs, r'))
    {label : Label} :
    label ∈ Value.unionLabels inputs ↔
      label ∈ Value.unionLabels r.gathered ∨
        label ∈ entrants (pendingReadings network store r loads) := by
  obtain ⟨found, rfl, live, events, none, _⟩ := mergeInputs_eq_ok read
  rw [Value.unionLabels_append, SortedSet.mem_union, events]
  cases loaded : r.loaded with
  | true =>
      rw [none loaded]
      rfl
  | false =>
      rw [if_neg Bool.false_ne_true, entrants_readings loads found (live loaded).length_eq.symm]

theorem held_shown (r : Run) (step : Step) (outcome : HopOutcome) :
    (r.shown step outcome).held = r.held := rfl

/-- One more active value is held with its labels. -/
theorem mem_held_push {value : Value} {label : Label} :
    label ∈ (r.push value).held ↔ label ∈ r.held ∨ label ∈ value.labels := by
  rw [mem_held, mem_held]
  simp only [push, Value.unionLabels_append, Value.unionLabels_cons, Value.unionLabels_nil,
    SortedSet.union_empty, SortedSet.mem_union]
  exact or_right_comm

theorem held_subset_push (value : Value) :
    r.held ⊆ (r.push value).held ∧ value.labels ∪ ∅ ⊆ (r.push value).held := by
  rw [SortedSet.union_empty]
  simp only [SortedSet.subset_def]
  exact ⟨fun label inside => mem_held_push.mpr (.inl inside),
    fun label inside => mem_held_push.mpr (.inr inside)⟩

/-- So is one more input of a merge. -/
theorem mem_held_collect {value : Value} {label : Label} :
    label ∈ (r.collect value).held ↔ label ∈ r.held ∨ label ∈ value.labels := by
  rw [mem_held, mem_held]
  simp only [collect, Value.unionLabels_append, Value.unionLabels_cons, Value.unionLabels_nil,
    SortedSet.union_empty, SortedSet.mem_union]
  exact or_assoc.symm

theorem held_subset_collect (value : Value) :
    r.held ⊆ (r.collect value).held ∧ value.labels ∪ ∅ ⊆ (r.collect value).held := by
  rw [SortedSet.union_empty]
  simp only [SortedSet.subset_def]
  exact ⟨fun label inside => mem_held_collect.mpr (.inl inside),
    fun label inside => mem_held_collect.mpr (.inr inside)⟩

/-- An output that keeps the labels of the values that it replaces loses none. -/
theorem held_subset_collapse {count : Nat} {output : Value}
    (kept : Value.unionLabels (r.youngest count) ⊆ output.labels) :
    r.held ⊆ (r.collapse count output).held := by
  rw [SortedSet.subset_def] at kept ⊢
  intro label inside
  rw [mem_held, mem_unionLabels_stack r count] at inside
  rw [mem_held]
  simp only [collapse, Value.unionLabels_append, SortedSet.mem_union]
  rcases inside with (left | taken) | gathered
  · exact .inl (.inl left)
  · exact .inl (.inr (SortedSet.mem_union.mpr (.inl (kept label taken))))
  · exact .inr gathered

/-- Nor does the output of a merge that keeps those of its inputs. -/
theorem mem_held_joined {output : Value} {label : Label} :
    label ∈ (r.joined output).held ↔ label ∈ Value.unionLabels r.stack ∨ label ∈ output.labels := by
  rw [mem_held]
  simp only [joined, Value.unionLabels_append, Value.unionLabels_cons, Value.unionLabels_nil,
    SortedSet.union_empty, SortedSet.mem_union]
  exact or_iff_left (SortedSet.not_mem_empty label)

/-- A deed that does not end its run loses no label, and holds those that enter. -/
theorem Deed.kept {w' : World} {r' : Run} (preserves : Preserves network r.chain)
    (deed : Deed network w r w' r') (running : r'.state = .running) :
    r.held ⊆ r'.held ∧ entrants (report network w r) ⊆ r'.held := by
  have nothing : ∀ {held : LabelSet}, ∅ ⊆ held := by
    intro held
    exact SortedSet.subset_def.mpr fun label inside => absurd inside (SortedSet.not_mem_empty label)
  cases deed with
  | @took id value _ here gave events =>
      rw [events, held_shown, entrants_gave]
      exact held_subset_push value
  | @gathered id value _ _ collects =>
      rw [collects.events, collects.same, entrants_gave]
      exact held_subset_collect value
  | relayed here found taken some_ enough applied events =>
      rw [events, held_shown]
      exact ⟨held_subset_collapse (preserves.kept here rfl applied), nothing⟩
  | stored here top place events =>
      rw [events]
      exact ⟨SortedSet.subset_def.mpr fun label inside => inside, nothing⟩
  | @loaded origin value here read events =>
      rw [events, held_shown, entrants_read]
      exact held_subset_push value
  | merged here asked read applied events =>
      have kept := SortedSet.subset_def.mp (preserves.kept here rfl applied)
      rw [events, held_shown, entrants_append]
      simp only [SortedSet.subset_def]
      constructor
      · intro label inside
        rcases mem_held.mp inside with active | gathered
        · exact mem_held_joined.mpr (.inl active)
        · have input := (mem_unionLabels_inputs read).mpr (.inl gathered)
          exact mem_held_joined.mpr (.inr (kept label input))
      · intro label inside
        rcases SortedSet.mem_union.mp inside with stored | none
        · have input := (mem_unionLabels_inputs read).mpr (.inr stored)
          exact mem_held_joined.mpr (.inr (kept label input))
        · exact absurd none (SortedSet.not_mem_empty label)
  | handedOn here onTheWay top handed heard store events =>
      rw [events]
      exact ⟨SortedSet.subset_def.mpr fun label inside => inside, nothing⟩
  | judged judges => exact absurd running judges.not_running
  | ended ends => exact absurd running ends.not_running

/-- In a run of a chain that preserves labels every label that has entered is held. -/
theorem Course.covered (preserves : Preserves network origin.chain) (fresh : origin.origins = ∅)
    (way : Course network rely origin log w r) (running : r.state = .running) : Covered r := by
  refine way.keeps (fun _ r => r.state = .running → Covered r) ?_ ?_ ?_ ?_ running
  · intro _ _
    refine SortedSet.subset_def.mpr fun label inside => ?_
    rw [show Run.origins _ = ∅ from fresh] at inside
    exact absurd inside (SortedSet.not_mem_empty label)
  · intro log w r w' r' before' before ih deed running
    rw [← before'.chain_eq] at preserves
    obtain ⟨kept, added⟩ := deed.kept preserves running
    exact (ih before).of_kept (deed.frame before).2.2.2 kept added
  · intro log w r sources loads operator params inputs r' _ before ih here asked read _
    refine (ih before).of_kept rfl ?_ ?_
    · refine SortedSet.subset_def.mpr fun label inside => ?_
      rw [mem_held] at inside ⊢
      exact inside.imp id fun gathered => (mem_unionLabels_inputs read).mpr (.inl gathered)
    · refine SortedSet.subset_def.mpr fun label inside => ?_
      rw [mem_held]
      exact .inr ((mem_unionLabels_inputs read).mpr (.inr inside))
  · intro _ _ _ _ _ before ih _
    exact ih before

/-! ## Sources that were asked -/

/-- A label has entered if a step that asks sources was done or has begun to gather. -/
def Sourced (r : Run) : Prop :=
  ∀ i step, r.chain.steps[i]? = some step → step.sources ≠ [] →
    (i < r.next ∨ i = r.next ∧ r.gathered ≠ []) → ∃ label, label ∈ r.origins

theorem exists_label_of_callSource {at_ : World.Location} {id : String} {context : Payload}
    {given : Option Timeout} {value : Value} {w' : World}
    (gave : w.callSource network at_ id context given = (some (.ok value), w')) :
    ∃ label, label ∈ value.labels := by
  obtain ⟨s, payload, _, rfl⟩ := World.callSource_eq_ok gave
  exact ⟨s.label, SortedSet.mem_singleton.mpr rfl⟩

theorem gathered_ne_nil {sources : List String} (asked : sources[r.gathered.length]? = none)
    (some_ : sources ≠ []) : r.gathered ≠ [] := by
  intro none
  rw [none] at asked
  exact some_ (List.length_eq_zero_iff.mp (Nat.le_zero.mp (List.getElem?_eq_none_iff.mp asked)))

/-- A step that asks sources and is done has let a label in. -/
theorem Sourced.of_passed {w' : World} {r' : Run} {step : Step} (sourced : Sourced r)
    (deed : Deed network w r w' r') (passes : Passes network w r r')
    (here : r.chain.steps[r.next]? = some step) (asks : step.sources ≠ []) :
    ∃ label, label ∈ r'.origins := by
  cases deed with
  | took here' gave events =>
      obtain ⟨label, inside⟩ := exists_label_of_callSource gave
      exact ⟨label, SortedSet.mem_union.mpr (.inr inside)⟩
  | merged here' asked read applied events =>
      obtain rfl := Option.some.inj (here.symm.trans here')
      obtain ⟨label, inside⟩ :=
        sourced r.next _ here asks (.inr ⟨rfl, gathered_ne_nil asked asks⟩)
      exact ⟨label, SortedSet.mem_union.mpr (.inl inside)⟩
  | gathered collects => exact absurd collects.next passes.next_ne
  | judged judges => exact absurd judges.next passes.next_ne
  | ended ends => exact absurd ends.next passes.next_ne
  | relayed here' => exact absurd rfl (Option.some.inj (here.symm.trans here') ▸ asks)
  | stored here' => exact absurd rfl (Option.some.inj (here.symm.trans here') ▸ asks)
  | loaded here' => exact absurd rfl (Option.some.inj (here.symm.trans here') ▸ asks)
  | handedOn here' => exact absurd rfl (Option.some.inj (here.symm.trans here') ▸ asks)

/-- Sources that were asked have let a label in, all along a course. -/
theorem Course.sourced (next : origin.next = 0) (nil : origin.gathered = [])
    (notLoaded : origin.loaded = false) (way : Course network rely origin log w r)
    (running : r.state = .running) : Sourced r := by
  refine way.keeps (fun _ r => r.state = .running → Sourced r) ?_ ?_ ?_ ?_ running
  · intro _ _ i step _ _ begun
    rw [show Run.next _ = 0 from next, show Run.gathered _ = [] from nil] at begun
    rcases begun with less | ⟨_, some_⟩
    · exact absurd less (Nat.not_lt_zero i)
    · exact absurd rfl some_
  · intro log w r w' r' before' before ih deed running i step here asks begun
    have sourced := ih before
    rcases deed.passes_or_collects before running with passes | ⟨_, _, collects⟩
    · obtain ⟨none, _⟩ := (before'.gathers nil notLoaded before).nil_of_passes deed passes
      rw [passes.chain] at here
      rw [passes.next, none] at begun
      rcases begun with less | ⟨_, some_⟩
      · rcases Nat.lt_succ_iff_lt_or_eq.mp less with less | rfl
        · obtain ⟨label, inside⟩ := sourced i step here asks (.inl less)
          rw [passes.origins]
          exact ⟨label, SortedSet.mem_union.mpr (.inl inside)⟩
        · exact sourced.of_passed deed passes here asks
      · exact absurd rfl some_
    · obtain ⟨_, _, _, _, _, _, gave⟩ := collects.asked
      obtain ⟨label, inside⟩ := exists_label_of_callSource gave
      rw [collects.same]
      exact ⟨label, SortedSet.mem_union.mpr (.inr inside)⟩
  · intro log w r sources loads operator params inputs r' _ before ih here asked read _ i step
      here' asks begun
    have old : ∃ label, label ∈ r.origins := by
      rcases begun with less | ⟨rfl, _⟩
      · exact ih before i step here' asks (.inl less)
      · obtain rfl := Option.some.inj (here.symm.trans here')
        exact ih before _ _ here asks (.inr ⟨rfl, gathered_ne_nil asked asks⟩)
    obtain ⟨label, inside⟩ := old
    exact ⟨label, SortedSet.mem_union.mpr (.inl inside)⟩
  · intro _ _ _ _ _ before ih _
    exact ih before

/-! ## The last step -/

/-- A chain that asks a source does so before its last step. -/
theorem exists_source_before_last {c : Chain} {defining : Network}
    (valid : c.validate defining = .ok ()) (asks : c.sources ≠ []) :
    ∃ i step, i < c.lastIndex ∧ c.steps[i]? = some step ∧ step.sources ≠ [] := by
  obtain ⟨id, inside⟩ := List.exists_mem_of_ne_nil _ asks
  obtain ⟨step, inSteps, named⟩ := List.mem_flatMap.mp inside
  obtain ⟨i, here⟩ := List.mem_iff_getElem?.mp inSteps
  have some_ : step.sources ≠ [] := List.ne_nil_of_mem named
  refine ⟨i, step, Nat.lt_of_le_of_ne (Chain.le_lastIndex here) ?_, here, some_⟩
  rintro rfl
  rw [Chain.steps_lastIndex] at here
  obtain rfl := Option.some.inj here
  rcases Chain.last_concludes valid with ⟨_, last⟩ | ⟨_, last⟩
  · rw [last] at some_
    exact some_ rfl
  · rw [last] at some_
    exact some_ rfl

theorem Gathers.nil_of_judges {step : Step} {value : Value}
    {outcomes : List (Except Fault SinkResult)} {w' : World} {r' : Run}
    (gathers : Gathers network r) (judges : Judges network w r step value outcomes w' r') :
    r.gathered = [] := by
  refine (gathers.nil_of_other judges.here ?_).1
  rcases judges.concludes with sink | ⟨fanout, _⟩
  · rw [sink]
    exact nofun
  · rw [fanout]
    exact nofun

/-- What the last sinks are handed is whole if it is all that the run holds. -/
theorem isWhole_of_covered {value : Value} (covered : Covered r) (sourced : ∃ label, label ∈ r.origins)
    (stack : r.stack = [value]) (gathered : r.gathered = []) : r.isWhole value.forward = true := by
  have all : ∀ label ∈ r.origins, label ∈ value.forward.labels := by
    intro label inside
    have there := SortedSet.subset_def.mp covered label inside
    rw [mem_held, stack, gathered] at there
    rcases there with active | none
    · rw [Value.unionLabels_cons, SortedSet.mem_union] at active
      exact active.elim id fun none => absurd none (SortedSet.not_mem_empty label)
    · exact absurd none (SortedSet.not_mem_empty label)
  obtain ⟨label, inside⟩ := sourced
  exact isWhole_iff.mpr ⟨⟨label, all label inside⟩, all⟩

/-- **No false break.**  Take an accepted chain whose operators are all registered as preserving,
that asks a source and comes to its last step with a single active value.  However a run of it is
interleaved with others, once its last sinks have all accepted what they were handed it is
completed. -/
theorem completed_of_accepted {chain : Chain} {scopes : RunScopes} {runId : String}
    {context : Payload} {timeout : Option Timeout} {value : Value}
    {outcomes : List (Except Fault SinkResult)}
    (valid : chain.validate network = .ok ()) (preserves : Preserves network chain)
    (asks : chain.sources ≠ [])
    (single : Chain.depthBefore network chain chain.lastIndex = some 1)
    (way : Course network rely (fresh chain scopes runId context timeout) log w r)
    (delivered : .delivered chain.lastIndex value outcomes ∈ log)
    (accepted : Accepted outcomes) : r.state = .completed := by
  refine way.keeps (fun log r => .delivered chain.lastIndex value outcomes ∈ log →
    r.state = .completed) ?_ ?_ ?_ ?_ delivered
  · exact fun _ inside => absurd inside List.not_mem_nil
  · intro log w r w' r' before running ih deed inside
    have same : r.chain = chain := before.chain_eq
    rcases List.mem_append.mp inside with inLog | inReport
    · exact nomatch running.symm.trans (ih inLog)
    · obtain ⟨last, _⟩ := delivered_of_mem_report inReport
      rcases deed.cases_of_running running with passes | ⟨_, _, collects⟩ | ⟨_, _, _, judges⟩ | ends
      · have end_ : r.chain.steps.length ≤ r.next + 1 := by
          have := chain.length_eq
          rw [same]
          omega
        have state := passes.state_of_valid (same ▸ valid)
        rw [passes.state, if_pos end_] at state
        exact nomatch state
      · rw [collects.events] at inReport
        exact nomatch List.mem_singleton.mp inReport
      · rw [judges.state, if_pos]
        have depth := before.depthBefore_eq rfl rfl rfl rfl rfl running
        rw [same, ← last, single] at depth
        obtain ⟨active, stack⟩ := List.length_eq_one_iff.mp (Option.some.inj depth).symm
        have top : r.top? = some active := by
          unfold top?
          rw [stack]
          rfl
        obtain rfl := Option.some.inj (judges.top.symm.trans top)
        have none := (before.gathers rfl rfl running).nil_of_judges judges
        obtain ⟨i, step, less, here, asked⟩ := exists_source_before_last valid asks
        exact isWhole_of_covered (before.covered preserves rfl running)
          (before.sourced rfl rfl rfl running i step (same ▸ here) asked (.inl (last ▸ less)))
          stack none
      · exact absurd accepted (ends.notAccepted _ _ _ inReport)
  · intro _ _ _ _ _ _ _ _ _ _ running ih _ _ _ inside
    rcases List.mem_append.mp inside with inLog | inReadings
    · exact nomatch running.symm.trans (ih inLog)
    · obtain ⟨_, _, other⟩ := read_of_mem_pendingReadings inReadings
      exact nomatch other
  · intro _ _ _ _ _ running ih inside
    exact ih inside

/-- A source, a sink and an operator that hands its input on. -/
def passage : Network :=
  { shortcut with
    engine := { operators := [("pass",
      { id := "pass", action := .onPayloads fun payloads _ _ =>
          .ofResult (.ok (payloads.headD .null)) })] } }

/-- The chain from the source through the operator to the sink. -/
def throughPassage : Chain where
  id := "through"
  expected := .command
  steps := [.source "form", .relay "pass" [], .sink "shell"]
  steps_ne := nofun

/-- A run that takes its taint through the operator is completed. -/
theorem completed_throughPassage :
    ∃ log w r value outcomes,
      Course passage (fun _ _ => True) (fresh throughPassage ⟨"1", none⟩ "1") log w r ∧
        .delivered throughPassage.lastIndex value outcomes ∈ log ∧ Accepted outcomes ∧
          r.state = .completed := by
  have begins : Course passage (fun _ _ => True) (fresh throughPassage ⟨"1", none⟩ "1") [] _ _ :=
    .started (w := {}) rfl
  have handed : ∃ log w r value outcomes,
      Course passage (fun _ _ => True) (fresh throughPassage ⟨"1", none⟩ "1") log w r ∧
        .delivered throughPassage.lastIndex value outcomes ∈ log ∧ Accepted outcomes := by
    refine ⟨_, _, _, _, [.ok _], ((begins.turned rfl).turned rfl).turned rfl,
      List.mem_append_right _ List.mem_cons_self, ?_⟩
    exact fun _ inside => List.mem_singleton.mp inside ▸ rfl
  obtain ⟨log, w, r, value, outcomes, way, delivered, accepted⟩ := handed
  have preserves : Preserves passage throughPassage := by
    intro id inside operator found
    obtain rfl := List.mem_singleton.mp inside
    exact Option.some.inj found ▸ rfl
  exact ⟨log, w, r, value, outcomes, way, delivered, accepted,
    completed_of_accepted rfl preserves nofun rfl way delivered accepted⟩

end TaintFlow.Run
