import TaintFlow.Proofs.Run.Delivery
import TaintFlow.Proofs.Run.Verification

/-!
# Verification is not seen where nobody interferes

Where nobody else puts anything at the keys that a run stores, what it reads back
there has the labels that it stored, and the run is the same whether it verifies
or not.  The main statement is `load_verification`, which also says what a run
refuses where others do interfere.
-/

namespace TaintFlow.Run

variable {network : Network} {rely : World → World → Prop} {w₀ w w' : World} {origin r r' : Run}
  {store : Store}

/-! ## Runs that nobody interferes with -/

/-- Nobody else puts anything at the keys that a run of the chain stores: neither the operators of
the chain nor, between its moves, anyone else.  Others may clear them. -/
structure Unshared (engine : Engine) (c : Chain) (scopes : RunScopes)
    (rely : World → World → Prop) : Prop where
  operators : ∀ e, c.MayAsk engine e → ∀ p key, c.Writes scopes p key → ¬ e.Puts p key
  others : ∀ {w w'}, rely w w' → ∀ p key, c.Writes scopes p key → ∀ value writtenAt,
    w'.store.slot? p key = some (.live value writtenAt) →
      w.store.slot? p key = some (.live value writtenAt)

/-- What stands at the keys that a run has stored has the labels that the run has written down. -/
structure Intact (store : Store) (r : Run) : Prop where
  named : ∀ {ref labels}, r.written.find? ref = some labels →
    ∃ step ∈ r.chain.steps, ref ∈ step.writes
  same : ∀ {ref labels p value writtenAt}, r.written.find? ref = some labels →
    ref.scope.partition (r.scopes.idFor ref.scope) = .ok p →
    store.slot? p ref.key = some (.live value writtenAt) → value.labels = labels

/-- What a run has stored stays intact in a turn if no operator puts anything there. -/
theorem Intact.turn (intact : Intact w.store r)
    (operators : ∀ e, r.chain.MayAsk network.engine e →
      ∀ p key, r.chain.Writes r.scopes p key → ¬ e.Puts p key)
    (turned : advance network w r = some (w', r')) (going : r'.state.isTerminal = false) :
    Intact w'.store r' := by
  obtain ⟨running, deed⟩ := deed_of_advance turned
  obtain ⟨chain, scopes, _⟩ := deed.frame running
  obtain ⟨asked, may, store⟩ := advance_edits turned
  -- what an operator asks for leaves alone what stands at the keys that the run stores
  have spared {ref : StoreRef} {p : Partition} {value : Value} {writtenAt : Int}
      (writes : ∃ step ∈ r.chain.steps, ref ∈ step.writes)
      (place : ref.scope.partition (r.scopes.idFor ref.scope) = .ok p)
      (live : (w.store.applyAll asked).slot? p ref.key = some (.live value writtenAt)) :
      w.store.slot? p ref.key = some (.live value writtenAt) := by
    obtain ⟨step, inside, names⟩ := writes
    exact Store.live_of_applyAll (fun e inAsked =>
      operators e (may e inAsked) p ref.key ⟨step, inside, ref, names, place, rfl⟩) live
  rcases stores_or_same turned going with ⟨target, stored, q, stores⟩ | ⟨nil, same⟩
  · have named : ∃ step ∈ r.chain.steps, target ∈ step.writes :=
      ⟨_, List.mem_of_getElem? stores.here, List.mem_cons_self⟩
    rw [stores.edits] at store
    refine ⟨fun {ref labels} found => ?_, fun {ref labels p value writtenAt} found place live => ?_⟩
    · rw [stores.written, Assoc.find?_put] at found
      rw [chain]
      split at found
      · rename_i here
        rwa [here]
      · exact intact.named found
    · rw [stores.written, Assoc.find?_put] at found
      rw [scopes] at place
      rw [store] at live
      split at found
      · rename_i here
        subst here
        obtain rfl := Except.ok.inj (place.symm.trans stores.place)
        obtain rfl := Option.some.inj found
        have put := (Store.slot?_write_self _ p ref.key stored.forward _).symm.trans live
        obtain ⟨rfl, -⟩ := Slot.live.inj (Option.some.inj put)
        rfl
      · rename_i other
        have elsewhere : p ≠ q ∨ ref.key ≠ target.key := by
          by_contra both
          obtain ⟨rfl, key⟩ := not_or.mp both |>.imp Classical.not_not.mp Classical.not_not.mp
          exact other (ref_eq_of_place place stores.place key)
        have there := (Store.slot?_write_of_ne _ elsewhere _ _).symm.trans live
        exact intact.same found place (spared (intact.named found) place there)
  · rw [nil] at store
    refine ⟨fun {ref labels} found => ?_, fun {ref labels p value writtenAt} found place live => ?_⟩
    · rw [chain]
      exact intact.named (same ▸ found)
    · rw [same] at found
      rw [scopes] at place
      rw [store] at live
      exact intact.same found place (spared (intact.named found) place live)

/-- What a run has stored stays intact where nobody else puts anything there. -/
theorem Path.intact (unshared : Unshared network.engine origin.chain origin.scopes rely)
    (nothing : origin.written = []) (path : Path network rely w₀ origin w r)
    (going : r.state.isTerminal = false) : Intact w.store r := by
  induction path with
  | here =>
      refine ⟨fun found => ?_, fun found => ?_⟩
      · rw [nothing] at found
        cases found
      · rw [nothing] at found
        cases found
  | @moved w w' r r' before move ih =>
      have operators := unshared.operators
      rw [← before.chain_eq, ← before.scopes_eq] at operators
      rcases move.turns_or_quiet with turned | quiet
      · have running := (running_of_advance turned).1
        exact (ih (by rw [running]; rfl)).turn operators turned going
      · obtain ⟨store, written⟩ := move.kept_of_quiet quiet going
        have intact := ih (quiet.going going)
        refine ⟨fun found => ?_, fun found place live => ?_⟩
        · rw [written] at found
          rw [quiet.chain]
          exact intact.named found
        · rw [written] at found
          rw [quiet.scopes] at place
          rw [store] at live
          exact intact.same found place live
  | @waited w w' r before others ih =>
      have intact := ih going
      refine ⟨intact.named, fun {ref labels p value writtenAt} found place live => ?_⟩
      obtain ⟨step, inside, names⟩ := intact.named found
      have means := place
      rw [before.chain_eq] at inside
      rw [before.scopes_eq] at means
      exact intact.same found place
        (unshared.others others p ref.key ⟨step, inside, ref, names, means, rfl⟩ _ _ live)

/-! ## Runs that verify and runs that do not -/

/-- The network with verification on or off. -/
def verifying (network : Network) (verify : Bool) : Network := { network with verifyLoads := verify }

variable {verify : Bool} {step : Step}

/-- What is intact is read alike. -/
theorem load_verifying (intact : Intact store r) (ref : StoreRef) :
    load (verifying network verify) store r ref = load network store r ref := by
  cases place : ref.scope.partition (r.scopes.idFor ref.scope) with
  | error mishap =>
      unfold load
      rw [place]
      rfl
  | ok p =>
      rcases live_or_absent store p ref.key with ⟨value, writtenAt, live⟩ | ⟨fault, absent, _⟩
      · have complete : ∀ labels, r.written.find? ref = some labels → labels ⊆ value.labels := by
          intro labels found
          rw [intact.same found place live]
          exact SortedSet.subset_def.mpr fun label inside => inside
        rw [load_of_complete place live fun _ => complete,
          load_of_complete place live fun _ => complete]
      · rw [load_of_absent place absent, load_of_absent place absent]

theorem loadAll_verifying (intact : Intact store r) (loads : List StoreRef) (values : List Value) :
    loadAll (verifying network verify) store r loads values =
      loadAll network store r loads values := by
  induction loads generalizing r values with
  | nil => rfl
  | cons ref rest ih =>
      unfold loadAll
      rw [load_verifying intact]
      cases read : load network store r ref with
      | error failure => rfl
      | ok pair =>
          obtain ⟨value, r₁⟩ := pair
          obtain ⟨rfl, _⟩ := load_eq_ok read
          have still : Intact store (r.entered value.labels) := ⟨intact.named, intact.same⟩
          exact ih still (values ++ [value])

theorem mergeInputs_verifying (intact : Intact store r) (loads : List StoreRef) :
    mergeInputs (verifying network verify) store r loads = mergeInputs network store r loads := by
  unfold mergeInputs
  rw [loadAll_verifying intact]

/-- A step of a run whose values are intact is done alike. -/
theorem runStep_verifying (intact : Intact w.store r) (step : Step) :
    runStep (verifying network verify) w r step = runStep network w r step := by
  cases step with
  | source id => rfl
  | relay id params => rfl
  | store target => rfl
  | load ref =>
      show runLoad _ w r _ ref = runLoad _ w r _ ref
      unfold runLoad
      rw [load_verifying intact]
  | fanout sinks => rfl
  | merge sources loads id params =>
      show runMerge _ w r _ sources loads id params = runMerge _ w r _ sources loads id params
      unfold runMerge
      cases sources[r.gathered.length]? with
      | none =>
          dsimp only
          unfold runMergeEnd
          rw [mergeInputs_verifying intact]
          rfl
      | some source => rfl
  | sink id => rfl

theorem advance_verifying (intact : r.state = .running → Intact w.store r) :
    advance (verifying network verify) w r = advance network w r := by
  unfold advance
  split
  · rename_i running
    cases r.chain.steps[r.next]? with
    | none => rfl
    | some step =>
        dsimp only
        rw [runStep_verifying (intact running)]
  · rfl

/-- A run whose values are intact moves alike. -/
theorem Move.verifying (intact : r.state = .running → Intact w.store r)
    (move : Move network w r w' r') : Move (verifying network verify) w r w' r' := by
  cases move with
  | begins begun => exact .begins begun
  | turns turned => exact .turns ((advance_verifying intact).trans turned)
  | readsAhead running here asked read =>
      exact .readsAhead running here asked ((mergeInputs_verifying (intact running) _).trans read)
  | summons running => exact .summons running
  | calls position running => exact .calls position running
  | hears running named top answer => exact .hears running named top answer
  | misses running named top answer => exact .misses running named top answer
  | closes terminal unclosed closed => exact .closes terminal unclosed closed

/-- A run that nobody interferes with takes the same paths whether it verifies or not. -/
theorem Path.verifying (unshared : Unshared network.engine origin.chain origin.scopes rely)
    (nothing : origin.written = []) (path : Path network rely w₀ origin w r) :
    Path (verifying network verify) rely w₀ origin w r := by
  induction path with
  | here => exact .here
  | moved before move ih =>
      refine ih.moved (move.verifying fun running => before.intact unshared nothing ?_)
      rw [running]
      rfl
  | waited before others ih => exact ih.waited others

theorem takeTurns_verifying (unshared : Unshared network.engine origin.chain origin.scopes rely)
    (nothing : origin.written = []) (path : Path network rely w₀ origin w r) (turns : Nat) :
    takeTurns (verifying network verify) turns w r = takeTurns network turns w r := by
  induction turns generalizing w r with
  | zero => rfl
  | succ turns ih =>
      have same : advance (verifying network verify) w r = advance network w r := by
        refine advance_verifying fun running => path.intact unshared nothing ?_
        rw [running]
        rfl
      unfold takeTurns
      rw [same]
      cases turned : advance network w r with
      | none => rfl
      | some after => exact ih (path.moved (.turns turned))

/-- A run without a break that nobody interferes with ends alike whether it verifies or not. -/
theorem run_verifying (unshared : Unshared network.engine origin.chain origin.scopes rely)
    (nothing : origin.written = []) (w : World) :
    run (verifying network verify) w origin = run network w origin := by
  unfold run
  cases begun : start w origin with
  | error mishap => rfl
  | ok first =>
      obtain ⟨w₁, r₁⟩ := first
      have path : Path network rely w origin w₁ r₁ := .moved .here (.begins begun)
      dsimp only
      rw [takeTurns_verifying unshared nothing path]

/-- **Load verification is exact, and transparent where nobody interferes.** -/
theorem load_verification (network : Network) (rely : World → World → Prop) (w₀ : World)
    (chain : Chain) (scopes : RunScopes) (runId : String) (context : Payload)
    (timeout : Option Timeout) :
    let origin := fresh chain scopes runId context timeout
    (∀ own w r, Journal network rely w₀ origin own w r → r.state = .running →
      Verifies network own w.store r) ∧
    (Unshared network.engine chain scopes rely → ∀ verify,
      (∀ w r, Path (verifying network verify) rely w₀ origin w r ↔
        Path network rely w₀ origin w r) ∧
      ∀ w, run (verifying network verify) w origin = run network w origin) := by
  refine ⟨fun own w r journal running => journal.verifies rfl running,
    fun unshared verify => ⟨fun w r => ⟨fun path => ?_, fun path => ?_⟩, fun w => ?_⟩⟩
  · have back : Path (Run.verifying (Run.verifying network verify) network.verifyLoads) rely w₀
        (fresh chain scopes runId context timeout) w r := path.verifying unshared rfl
    exact back
  · exact path.verifying unshared rfl
  · exact run_verifying unshared rfl w

/-- A chain that stores what it takes from a source in the session, and reads it back. -/
def rereading : Chain where
  id := "rereading"
  expected := .command
  steps := [.source "form", .store ⟨.session, "k"⟩, .load ⟨.session, "k"⟩, .sink "shell"]
  steps_ne := nofun

/-- Somebody puts a clean value at the key. -/
def Overwrites (w w' : World) : Prop := w' = w.edit {} (.put ⟨.session, "s"⟩ "k" {} 0)

/-- A value that was overwritten is refused when it is read back, and without anyone else the run is
the same whether it verifies or not. -/
theorem load_verification_rereading :
    (∃ own w r, Journal shortcut Overwrites {} (fresh rereading ⟨"1", some "s"⟩ "1") own w r ∧
      Loses (load shortcut w.store r ⟨.session, "k"⟩)) ∧
    run (verifying shortcut false) {} (fresh rereading ⟨"1", some "s"⟩ "1") =
      run shortcut {} (fresh rereading ⟨"1", some "s"⟩ "1") := by
  constructor
  · obtain ⟨w₁, r₁, w₂, r₂, w₃, r₃, begun, quiet, first, second, running, spoilt⟩ :
        ∃ w₁ r₁ w₂ r₂ w₃ r₃,
          start {} (fresh rereading ⟨"1", some "s"⟩ "1") = .ok (w₁, r₁) ∧
          Quiet (fresh rereading ⟨"1", some "s"⟩ "1") r₁ ∧
          advance shortcut w₁ r₁ = some (w₂, r₂) ∧ advance shortcut w₂ r₂ = some (w₃, r₃) ∧
          r₃.state = .running ∧
          r₃.Spoilt (r₁.turnEdits ++ r₂.turnEdits)
            (w₃.edit {} (.put ⟨.session, "s"⟩ "k" {} 0)).store ⟨.session, "k"⟩ := by
      refine ⟨_, _, _, _, _, _, rfl, ?_, rfl, rfl, rfl, ?_⟩
      · exact ⟨rfl, rfl, rfl, rfl, .inr ⟨rfl, rfl⟩, rfl, rfl, rfl, .inl rfl⟩
      · let label : Label := { origin := "form", category := .httpBody }
        refine ⟨⟨.session, "s"⟩, {}, 0, ⟨.null, .singleton label, 1⟩, rfl, rfl,
          ⟨1, [], _, [], rfl, rfl, nofun⟩, fun sub => ?_⟩
        exact SortedSet.not_mem_empty label (sub label (SortedSet.mem_singleton.mpr rfl))
    have journal : Journal shortcut Overwrites {} (fresh rereading ⟨"1", some "s"⟩ "1")
        (r₁.turnEdits ++ r₂.turnEdits) _ r₃ :=
      (((Journal.here.moved (.begins begun) quiet).turned first).turned second).waited rfl
    have verified := (load_verification shortcut Overwrites {} rereading ⟨"1", some "s"⟩ "1" .null
      none).1 _ _ r₃ journal running
    exact ⟨_, _, r₃, journal, (verified.load _).mpr ⟨rfl, spoilt⟩⟩
  · have unshared : Unshared shortcut.engine rereading ⟨"1", some "s"⟩ (fun _ _ => False) := by
      refine ⟨fun e may => ?_, fun none => none.elim⟩
      obtain ⟨id, inside, _⟩ := may
      cases inside
    exact ((load_verification shortcut (fun _ _ => False) {} rereading ⟨"1", some "s"⟩ "1" .null
      none).2 unshared false).2 {}

end TaintFlow.Run
