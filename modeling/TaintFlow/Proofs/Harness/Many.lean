import TaintFlow.Proofs.Harness.Attempt
import TaintFlow.Proofs.Run.Recasting
import TaintFlow.Proofs.Isolation.Together
import TaintFlow.Proofs.Json.Text
import TaintFlow.Proofs.Number.Digits

/-!
# Runs of several chains at once

A harness that runs several chains at once makes up an execution id for each, and
no two are the same.  So each run has the result that it has alone, unless its
chain stores in a session or in the process what another one names: the main
statement is `runMany_isolates`.
-/

namespace TaintFlow

/-! ## Chains that disturb each other -/

/-- A chain stores in a session or in the process what another one names. -/
def Chain.Disturbs (c other : Chain) : Prop :=
  ∃ step ∈ c.steps, ∃ ref ∈ step.writes, ref.scope ≠ .request ∧
    ∃ step' ∈ other.steps, ref ∈ step'.storeRefs

/-- Two references that mean the same key of the same partition are the same. -/
theorem RunScopes.Means.ref_eq {scopes scopes' : RunScopes} {ref ref' : StoreRef} {p : Partition}
    {key : String} (means : scopes.Means ref p key) (means' : scopes'.Means ref' p key) :
    ref = ref' := by
  obtain ⟨place, rfl⟩ := means
  obtain ⟨place', same⟩ := means'
  have scope := (Scope.partition_eq_ok place).1.symm.trans (Scope.partition_eq_ok place').1
  cases ref
  cases ref'
  exact congr (congrArg StoreRef.mk scope) same.symm

/-- A run that names a key that another one writes is disturbed by it, or the key is of a request. -/
theorem Chain.disturbs_of_writes {c other : Chain} {scopes scopes' : RunScopes} {p : Partition}
    {key : String} (shared : p.scope ≠ .request) (writes : c.Writes scopes p key)
    (names : other.Reads scopes' p key ∨ other.Writes scopes' p key) : c.Disturbs other := by
  obtain ⟨step, inside, ref, written, means⟩ := writes
  have outside : ref.scope ≠ .request := (Scope.partition_eq_ok means.1).1 ▸ shared
  refine ⟨step, inside, ref, written, outside, ?_⟩
  rcases names with ⟨step', inside', ref', named, means'⟩ | ⟨step', inside', ref', named, means'⟩
  · exact ⟨step', inside', means.ref_eq means' ▸ step'.reads_subset named⟩
  · exact ⟨step', inside', means.ref_eq means' ▸ step'.writes_subset named⟩

namespace Harness

variable {h : Harness}

/-- The id that a harness makes up after a number of others. -/
def idAfter (issued width : Nat) : String :=
  String.ofList (idStem width ++ Text.hexPadded 8 (issued + 1))

theorem idAfter_injective {issued issued' width : Nat}
    (same : idAfter issued width = idAfter issued' width) : issued = issued' := by
  have digits := List.append_cancel_left (String.ofList_injective same)
  have numbers := congrArg (Number.ofDigits? 16) digits
  rw [Number.ofDigits?_hexPadded, Number.ofDigits?_hexPadded] at numbers
  exact Nat.succ.inj (Option.some.inj numbers)

theorem idAfter_ne_empty (issued : Nat) : idAfter issued 32 ≠ "" := by
  intro empty
  have nothing := (String.ofList_eq_empty_iff.mp empty)
  exact absurd (List.append_eq_nil_iff.mp nothing).1 (by decide)

/-- The id can be encoded. -/
theorem hasHalf_idAfter (issued : Nat) : Text.hasHalf (idAfter issued 32).toList = false := by
  rw [idAfter, String.toList_ofList, Text.hasHalf, List.any_append, Bool.or_eq_false_iff]
  refine ⟨by decide, List.any_eq_false.mpr fun c inside half => ?_⟩
  obtain ⟨d, digit⟩ :=
    Number.exists_digitIn?_of_ofDigits? (Number.ofDigits?_hexPadded 8 (issued + 1)) c inside
  cases (Text.isHalf_of_isPlainAscii (Number.isPlainAscii_of_digitIn? digit)).symm.trans half

/-! ## Runs that have been made -/

/-- A run of the chain of this id, under an execution id that was made up after at least so many
others. -/
def Makes (h : Harness) (session : Option String) (context : Payload) (timeout : Option Timeout)
    (least : Nat) (id : String) (r : Run) : Prop :=
  ∃ c issued runId, h.chains.find? id = some c ∧ (c.usesSession = true → session ≠ none) ∧
    least ≤ issued ∧ r = Run.fresh c ⟨idAfter issued 32, session⟩ runId context timeout

section

variable {session : Option String} {context : Payload} {timeout : Option Timeout}
  {least : Nat} {id : String} {r : Run}

theorem Makes.of_mem {ids : List String} {rs : List Run}
    (made : List.Forall₂ (h.Makes session context timeout least) ids rs) (inside : r ∈ rs) :
    ∃ id, h.Makes session context timeout least id r := by
  obtain ⟨i, less, rfl⟩ := List.getElem_of_mem inside
  exact ⟨_, made.get (made.length_eq.symm ▸ less) less⟩

theorem newRun_of_find? {c : Chain} (found : h.chains.find? id = some c)
    (within : c.usesSession = true → session ≠ none) (execution : String) :
    h.newRun id ⟨execution, session⟩ context timeout =
      .ok (Run.fresh c ⟨execution, session⟩ (h.freshId 32).1 context timeout, h.issuing) := by
  rw [newRun_eq, getChain_eq_ok.mpr found]
  dsimp only
  rw [requireSession_eq_ok.mpr within]

/-- Where all chains can start, there is a run for each, all under execution ids of their own, and
the harness has made up ids and done nothing else. -/
theorem newRuns_eq (ids : List String)
    (startable : ∀ id ∈ ids, ∃ c, h.chains.find? id = some c ∧
      (c.usesSession = true → session ≠ none)) :
    ∃ rs issued, h.newRuns session context timeout ids = (rs.map .ok, { h with issued }) ∧
      List.Forall₂ (h.Makes session context timeout h.issued) ids rs ∧
      rs.Pairwise fun r r' => r.scopes.execution ≠ r'.scopes.execution := by
  induction ids generalizing h with
  | nil => exact ⟨[], h.issued, rfl, .nil, .nil⟩
  | cons id rest ih =>
      obtain ⟨c, found, within⟩ := startable id List.mem_cons_self
      let named : Harness := { h with issued := h.issued + 1 }
      have first : named.newRun id ⟨idAfter h.issued 32, session⟩ context timeout = _ :=
        newRun_of_find? (h := named) found within _
      obtain ⟨rs, issued, others, made, distinct⟩ := ih (h := named.issuing) fun id inside =>
        startable id (List.mem_cons_of_mem _ inside)
      let r := Run.fresh c ⟨idAfter h.issued 32, session⟩ (named.freshId 32).1 context timeout
      refine ⟨r :: rs, issued, ?_, .cons ?_ (made.imp ?_), .cons ?_ distinct⟩
      · have execution : h.freshId 32 = (idAfter h.issued 32, named) := rfl
        rw [newRuns, execution]
        dsimp only
        rw [first]
        dsimp only
        rw [others]
        rfl
      · exact ⟨c, h.issued, _, found, within, Nat.le_refl _, rfl⟩
      · rintro id r ⟨c, issued, runId, found, within, more, made⟩
        exact ⟨c, issued, runId, found, within, Nat.le_of_lt (Nat.lt_of_lt_of_le
          (Nat.lt_add_of_pos_right (by decide : 0 < 2)) more), made⟩
      · intro r' inside same
        obtain ⟨_, _, later, _, _, _, more, new⟩ := Makes.of_mem made inside
        have same : idAfter h.issued 32 = idAfter later 32 :=
          same.trans (congrArg (fun r => r.scopes.execution) new)
        have more : h.issued + 2 ≤ later := more
        have := idAfter_injective same
        omega

/-- Chains that do not disturb each other are run apart, under ids of their own. -/
theorem apart_of_makes {ids : List String} {rs : List Run}
    (made : List.Forall₂ (h.Makes session context timeout least) ids rs)
    (distinct : rs.Pairwise fun r r' => r.scopes.execution ≠ r'.scopes.execution)
    (undisturbed : ids.Pairwise fun id id' => ∀ c c', h.chains.find? id = some c →
      h.chains.find? id' = some c' → ¬ c.Disturbs c' ∧ ¬ c'.Disturbs c) : Run.Apart rs.get where
  own := by
    intro i j differ
    rw [List.pairwise_iff_getElem] at distinct
    rcases Nat.lt_or_gt_of_ne (Fin.val_ne_of_ne differ) with less | more
    · exact distinct i j i.isLt j.isLt less
    · exact (distinct j i j.isLt i.isLt more).symm
  keys := by
    intro i j differ p key shared writes
    have chainAt (k : Fin rs.length) : ∃ id c, ids[k]? = some id ∧ h.chains.find? id = some c ∧
        (rs.get k).chain = c := by
      have less : (k : Nat) < ids.length := by
        rw [made.length_eq]
        exact k.isLt
      obtain ⟨c, _, _, found, _, _, new⟩ := made.get less k.isLt
      exact ⟨_, c, List.getElem?_eq_getElem less, found, congrArg Run.chain new⟩
    have apart : ¬ (rs.get j).chain.Disturbs (rs.get i).chain := by
      obtain ⟨id, c, at_, found, same⟩ := chainAt i
      obtain ⟨id', c', at', found', same'⟩ := chainAt j
      obtain ⟨less, rfl⟩ := List.getElem?_eq_some_iff.mp at_
      obtain ⟨less', rfl⟩ := List.getElem?_eq_some_iff.mp at'
      rw [same, same']
      rw [List.pairwise_iff_getElem] at undisturbed
      rcases Nat.lt_or_gt_of_ne (Fin.val_ne_of_ne differ) with before | after
      · exact (undisturbed i j less less' before c c' found found').2
      · exact (undisturbed j i less' less after c' c found' found).1
    exact ⟨fun reads => apart (Chain.disturbs_of_writes shared writes (.inl reads)),
      fun writes' => apart (Chain.disturbs_of_writes shared writes (.inr writes'))⟩

/-- A run under an execution id of its own comes to what the chain comes to alone. -/
theorem Makes.runChain (made : h.Makes session context timeout least id r)
    (idle : h.loop.isIdle = true) {w : World} {s : Run}
    (ran : r.run h.network h.world = .returned w s) :
    ∃ execution after alone, h.runChain id ⟨execution, session⟩ context timeout =
      .returned after alone ∧ alone.named "" = s.result.named "" := by
  obtain ⟨c, issued, runId, found, within, _, rfl⟩ := made
  let scopes : RunScopes := ⟨idAfter issued 32, session⟩
  have attempt : h.runChain id scopes context timeout = _ :=
    runChain_of_find? idle found within context timeout
  have renamed := Run.run_named h.network h.world
    (Run.fresh c ⟨idAfter issued 32, session⟩ runId context timeout) (h.freshId 32).1
  rw [ran] at renamed
  exact ⟨_, _, _, attempt.trans (congrArg h.issuing.concluded renamed), rfl⟩

end

/-- **Chains that are run at once come to what they come to alone.**  They are defined and have a
session if they use one, call nothing that keeps a state, and none stores in a session or in the
process what another one names.  If they come back, each has the result that it has when it is run
alone under an execution id of its own, but for the id that the run is recorded under. -/
theorem runMany_isolates {h' : Harness} {ids : List String} {session : Option String}
    {context : Payload} {timeout : Option Timeout} {results : List RunResult}
    (vacant : h.loop.Vacant)
    (startable : ∀ id ∈ ids, ∃ c, h.chains.find? id = some c ∧
      (c.usesSession = true → session ≠ none))
    (stateless : ∀ id c, h.chains.find? id = some c → c.Stateless h.network)
    (undisturbed : ids.Pairwise fun id id' => ∀ c c', h.chains.find? id = some c →
      h.chains.find? id' = some c' → ¬ c.Disturbs c' ∧ ¬ c'.Disturbs c)
    (ran : h.runMany ids session context timeout = (.ok results, h')) :
    List.Forall₂ (fun id result => ∃ execution after alone,
      h.runChain id ⟨execution, session⟩ context timeout = .returned after alone ∧
        alone.named "" = result.named "") ids results := by
  obtain ⟨rs, issued, begun, made, distinct⟩ := newRuns_eq ids startable
  unfold runMany at ran
  rw [begun] at ran
  dsimp only at ran
  obtain ⟨came, world, loop, together⟩ : ∃ came world loop,
      h.loop.runTogether h.network h.world (rs.map .ok) = (came, world, loop) := ⟨_, _, _, rfl⟩
  rw [together] at ran
  obtain rfl : came = .ok results := (Prod.mk.inj ran).1
  have fresh : ∀ r ∈ rs, Run.Idle r ∧ r.stack = [] := by
    intro r inside
    obtain ⟨_, _, _, _, _, _, _, rfl⟩ := Makes.of_mem made inside
    exact ⟨Run.idle_fresh _ _ _ _ _, rfl⟩
  have calls : ∀ r ∈ rs, r.chain.Stateless h.network := by
    intro r inside
    obtain ⟨id, c, _, _, found, _, _, rfl⟩ := Makes.of_mem made inside
    exact stateless id c found
  obtain ⟨alone, -⟩ := EventLoop.runTogether_isolates vacant fresh
    (apart_of_makes made distinct undisturbed) calls together
  refine List.forall₂_iff_get.mpr ⟨made.length_eq.trans alone.length_eq, fun i less less' => ?_⟩
  have between : i < rs.length := made.length_eq ▸ less
  obtain ⟨w, s, returned, same⟩ := alone.get between less'
  rw [← same]
  exact (made.get less between).runChain vacant.idle returned

end Harness

end TaintFlow
