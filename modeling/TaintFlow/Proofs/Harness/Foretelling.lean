import TaintFlow.Proofs.Harness.Definitions
import TaintFlow.Proofs.Run.Account

/-!
# Ground truth foretells runs

What a scanner should find in a chain is read off its steps.  A run of the chain
comes to the same by asking, applying and handing over, one turn after the other:
`ground_truth_foretells`.
-/

namespace TaintFlow

/-- The categories of a registered sink. -/
def Network.categoriesOf (network : Network) (id : String) : SortedSet SinkCategory :=
  match network.sinks.get id with
  | .ok s => s.categories
  | .error _ => ∅

theorem Run.matchesCategory_iff {network : Network} {expected : SinkCategory}
    {sinks : List String} :
    matchesCategory network expected sinks = true ↔
      ∃ id ∈ sinks, expected ∈ network.categoriesOf id := by
  unfold matchesCategory Network.categoriesOf
  rw [List.any_eq_true]
  refine exists_congr fun id => and_congr_right fun _ => ?_
  cases network.sinks.get id with
  | ok s => exact decide_eq_true_iff
  | error fault => exact iff_of_false Bool.false_ne_true (List.not_mem_nil)

namespace Harness

variable {h : Harness} {c : Chain} {truth : GroundTruth}

/-- What the truth about a chain says of its components. -/
structure Truth (network : Network) (c : Chain) (truth : GroundTruth) : Prop where
  chain : truth.chain = c.id
  expected : truth.expected = c.expected
  sources : truth.sources.map Prod.fst = c.sources
  sinks : truth.sinks = c.sinks.map fun id => (id, network.categoriesOf id)
  kinds : truth.kinds = c.steps.map Step.kind
  operators : truth.operators = c.operators

theorem truth_of_truthOf (told : h.truthOf c = .ok truth) : Truth h.network c truth := by
  obtain ⟨sources, asked, told⟩ := Except.bind_eq_ok.mp told
  obtain ⟨sinks, heard, told⟩ := Except.bind_eq_ok.mp told
  obtain rfl := Except.pure_eq_ok.mp told
  refine ⟨rfl, rfl, ?_, ?_, rfl, rfl⟩
  · have each := (Except.mapM_eq_ok.mp asked).imp fun id entry named =>
      show id = entry.1 by
        obtain ⟨_, _, same⟩ := Except.bind_eq_ok.mp named
        obtain rfl := Except.pure_eq_ok.mp same
        rfl
    exact (List.forall₂_eq_eq_eq ▸ List.forall₂_map_right_iff.mpr each : c.sources = _).symm
  · have each := (Except.mapM_eq_ok.mp heard).imp fun id entry named =>
      show (id, h.network.categoriesOf id) = entry by
        obtain ⟨s, found, same⟩ := Except.bind_eq_ok.mp named
        obtain rfl := Except.pure_eq_ok.mp same
        rw [Network.categoriesOf, found]
    exact (List.forall₂_eq_eq_eq ▸ List.forall₂_map_left_iff.mpr each : _ = sinks).symm

theorem mem_listChains_none {id : String} (held : (id, c) ∈ h.chains) :
    c ∈ h.listChains none :=
  List.mem_mergeSort.mpr (List.mem_map.mpr ⟨(id, c), held, rfl⟩)

/-- What is said under the id of a chain is the truth about this chain. -/
theorem Sound.truth_about (sound : h.Sound) {id : String} (found : h.chains.find? id = some c)
    {category : Option SinkCategory} {truths : List GroundTruth}
    (told : h.groundTruth category = .ok truths) (inside : truth ∈ truths)
    (about : truth.chain = id) : Truth h.network c truth := by
  obtain ⟨other, listed, said⟩ := (Except.mem_of_mapM_eq_ok told).mp inside
  have truth := truth_of_truthOf said
  obtain ⟨key, held⟩ := mem_listChains listed
  obtain rfl : key = id := (sound.holds _ held).named.trans (truth.chain.symm.trans about)
  obtain rfl := Option.some.inj (found.symm.trans ((Assoc.mem_iff_find? sound.once).mp held))
  exact truth

/-- There is a truth about every chain. -/
theorem Sound.exists_truth (sound : h.Sound) {id : String} (found : h.chains.find? id = some c) :
    ∃ truths, h.groundTruth none = .ok truths ∧ ∃ truth ∈ truths, truth.chain = id := by
  have held := (Assoc.mem_iff_find? sound.once).mpr found
  obtain ⟨truths, told⟩ := sound.groundTruth none
  obtain ⟨truth, said⟩ :=
    exists_truthOf (Chain.registered_of_valid (sound.holds _ held).valid)
  refine ⟨truths, told, truth, ?_, ?_⟩
  · exact (Except.mem_of_mapM_eq_ok told).mpr ⟨c, mem_listChains_none held, said⟩
  · exact (truth_of_truthOf said).chain.trans (sound.holds _ held).named.symm

/-- The category of a run that is completed is among those that the truth lists for the last
sinks. -/
theorem Truth.matchesCategory_iff {network : Network} (told : Truth network c truth) :
    Run.matchesCategory network c.expected c.last.sinks = true ↔
      ∃ entry ∈ truth.sinks, entry.1 ∈ c.last.sinks ∧ truth.expected ∈ entry.2 := by
  rw [Run.matchesCategory_iff, told.sinks, told.expected]
  constructor
  · rintro ⟨id, last, expected⟩
    have named : id ∈ c.sinks :=
      List.mem_flatMap.mpr ⟨c.last, List.getLast_mem c.steps_ne, last⟩
    exact ⟨_, List.mem_map_of_mem named, last, expected⟩
  · rintro ⟨entry, inside, last, expected⟩
    obtain ⟨id, _, rfl⟩ := List.mem_map.mp inside
    exact ⟨id, last, expected⟩

/-- **Ground truth foretells the run.**  However a harness has come to a chain that it holds, there
is a truth about the chain, and a run of the chain, whatever it is interleaved with, that has come
to the sinks of its last step has asked the sources, applied the operators, heard the sinks and
written down the kinds of steps that the truth lists, in the same order.  A run that is completed
has been matched with its category exactly if the truth lists it for one of the last sinks. -/
theorem ground_truth_foretells (config : HarnessConfig) (requests : List Request) {id : String}
    {c : Chain} (held : ((empty config).served requests).chains.find? id = some c)
    {rely : World → World → Prop} {w₀ w : World} {r : Run} {scopes : RunScopes} {runId : String}
    {context : Payload} {timeout : Option Timeout} {calls : List Run.Call}
    {outcomes : List (Except Fault SinkResult)}
    (account : Run.Account ((empty config).served requests).network rely w₀
      (Run.fresh c scopes runId context timeout) calls w r)
    (handed : .handed c.lastIndex outcomes ∈ calls) :
    (∃ truths, ((empty config).served requests).groundTruth none = .ok truths ∧
        ∃ truth ∈ truths, truth.chain = id) ∧
      ∀ category truths truth, ((empty config).served requests).groundTruth category = .ok truths →
        truth ∈ truths → truth.chain = id →
          calls.filterMap Run.Call.source? = truth.sources.map Prod.fst ∧
          calls.filterMap Run.Call.operator? = truth.operators ∧
          r.result.sinkResults.map SinkResult.sink = truth.sinks.map Prod.fst ∧
          r.result.trace.map (fun shown => shown.step.kind) = truth.kinds ∧
          (r.state = .completed → (r.result.categoryMatch = some true ↔
            ∃ entry ∈ truth.sinks, entry.1 ∈ c.last.sinks ∧ truth.expected ∈ entry.2)) := by
  have sound := sound_served config requests
  have valid := (sound.holds _ ((Assoc.mem_iff_find? sound.once).mpr held)).valid
  have foretold := account.foretold valid handed
  have chain : r.chain = c := account.path.chain_eq
  refine ⟨sound.exists_truth held, fun category truths truth told inside about => ?_⟩
  have lists := sound.truth_about held told inside about
  refine ⟨?_, ?_, ?_, ?_, fun completed => ?_⟩
  · rw [foretold.sources, chain, lists.sources]
  · rw [foretold.operators, chain, lists.operators]
  · rw [foretold.sinks, chain, lists.sinks, List.map_map]
    exact (List.map_id c.sinks).symm
  · rw [lists.kinds, ← chain, ← foretold.steps, List.map_map]
    rfl
  · rw [foretold.category completed, chain, Option.some.injEq, lists.matchesCategory_iff]

/-- A harness that waits for its components as long as it takes. -/
def patient : HarnessConfig := { usualTimeout := none }

/-- A run of the chain from a source to a sink asks the one and is heard by the other. -/
theorem ground_truth_foretells_direct : ∃ w r calls outcomes truths truth,
    Run.Account ((empty patient).served defining).network (fun _ _ => False) {}
        (Run.fresh Run.direct ⟨"1", none⟩ "1") calls w r ∧
      .handed Run.direct.lastIndex outcomes ∈ calls ∧ r.state = .completed ∧
      ((empty patient).served defining).groundTruth none = .ok truths ∧ truth ∈ truths ∧
      calls.filterMap Run.Call.source? = truth.sources.map Prod.fst ∧
      r.result.sinkResults.map SinkResult.sink = truth.sinks.map Prod.fst ∧
      (r.result.categoryMatch = some true ↔
        ∃ entry ∈ truth.sinks, entry.1 ∈ Run.direct.last.sinks ∧ truth.expected ∈ entry.2) := by
  let network := ((empty patient).served defining).network
  obtain ⟨w₁, r₁, w₂, r₂, w₃, r₃, outcomes, begun, first, second, completed, heard⟩ :
      ∃ w₁ r₁ w₂ r₂ w₃ r₃ outcomes,
        Run.start {} (Run.fresh Run.direct ⟨"1", none⟩ "1") = .ok (w₁, r₁) ∧
          Run.advance network w₁ r₁ = some (w₂, r₂) ∧ Run.advance network w₂ r₂ = some (w₃, r₃) ∧
          r₃.state = .completed ∧
          Run.callsOfTurn network w₂ r₂ = [.handed Run.direct.lastIndex outcomes] :=
    ⟨_, _, _, _, _, _, _, rfl, rfl, rfl, rfl, rfl⟩
  have account : Run.Account network (fun _ _ => False) {}
      (Run.fresh Run.direct ⟨"1", none⟩ "1") _ w₃ r₃ :=
    ((Run.Account.here.moved (.begins begun) nofun).turned first).turned second
  have handed : .handed Run.direct.lastIndex outcomes ∈
      [] ++ Run.callsOfTurn network w₁ r₁ ++ Run.callsOfTurn network w₂ r₂ := by
    rw [heard]
    exact List.mem_append_right _ List.mem_cons_self
  have held : ((empty patient).served defining).chains.find? "direct" = some Run.direct := rfl
  obtain ⟨⟨truths, told, truth, inside, about⟩, foretold⟩ :=
    ground_truth_foretells patient defining held account handed
  obtain ⟨sources, _, sinks, _, category⟩ := foretold none truths truth told inside about
  exact ⟨w₃, r₃, _, outcomes, truths, truth, account, handed, completed, told, inside, sources,
    sinks, category completed⟩

end Harness

end TaintFlow
