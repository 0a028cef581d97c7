import TaintFlow.Proofs.Provenance.Likeness

/-!
# Provenance does not depend on payloads

A run that nobody disturbs follows the sketch of its chain, so what it shows of
labels is up to the chain, the labels of its sources and the labels that could be
read when it started.  Two runs that have these in common show the same, whatever
their payloads: `provenance_ignores_payloads`.
-/

namespace TaintFlow.Run

variable {network : Network} {rely : World → World → Prop} {w₀ w w' : World} {r r' : Run}
  {calls : List Call} {sk : Sketch} {step : Step}

/-! ## The last step -/

/-- Sinks see the active value one hop on, and change nothing. -/
theorem pass_of_handed {value : Value} {outcomes : List (Except Fault SinkResult)}
    (handed : Handed network w r value step outcomes) (scopes : RunScopes) (sk : Sketch) :
    sk.pass network scopes step = (sk, sk.top.forward, .preserved) := by
  rcases handed.sink_or_fanout with ⟨id, rfl⟩ | ⟨sinks, rfl⟩
  · rfl
  · rfl

/-- How a run ends whose last sinks have accepted, as its sketch tells it. -/
structure Verdict (sk : Sketch) (r : Run) : Prop where
  state : r.state = if sk.isWhole then .completed else .broken
  missing : r.result.error.map ErrorRecord.missing =
    if sk.isWhole then none else some (sk.origins \ sk.top.labels).texts

theorem Verdict.isTerminal (verdict : Verdict sk r) : r.state.isTerminal = true := by
  rw [verdict.state]
  split <;> rfl

/-- The last sinks have accepted: the entry shows what the sketch shows, and the run ends as the
sketch tells. -/
theorem Resembles.judges {value : Value} {outcomes : List (Except Fault SinkResult)}
    (resembles : Resembles network w r sk) (gathers : Gathers network r)
    (valid : r.chain.validate network = .ok ()) (running : r.state = .running)
    (turned : advance network w r = some (w', r'))
    (judges : Judges network w r step value outcomes w' r') :
    Verdict sk r' ∧ ∃ entry, r'.result.trace = r.result.trace ++ [entry] ∧
      Tells entry (sk.pass network r.scopes step).2.1 (sk.pass network r.scopes step).2.2 := by
  obtain ⟨last, _⟩ := judges.atLast valid
  have hands := hands_of_last running judges.here (decide_eq_true last) judges.top judges.handed
    (atMostRejected_of_accepted judges.accepted) turned
  have top := resembles.top judges.top
  have origins := resembles.origins_of_nil
    (gathers.nil_of_other judges.here (names_of_handed judges.handed).1).1
  have whole : r.isWhole value.forward = sk.isWhole := by
    unfold isWhole Sketch.isWhole
    rw [top, origins]
    rfl
  refine ⟨⟨?_, ?_⟩, ?_⟩
  · rw [judges.state, whole]
  · rw [hands.missing judges.accepted, whole, origins, top, Value.outline_labels]
  · obtain ⟨entry, records, _, shows⟩ := hands.shown
    obtain ⟨labels, hops, outcome⟩ := shows judges.accepted
    rw [pass_of_handed judges.handed, top]
    exact ⟨entry, records.trace, labels, hops, outcome⟩

/-- A turn shows what the sketch shows of its step, if it shows something and no error. -/
theorem Resembles.shows (resembles : Resembles network w r sk) (gathers : Gathers network r)
    (valid : r.chain.validate network = .ok ()) (blind : r.chain.IsBlind network)
    (here : r.chain.steps[r.next]? = some step) (turned : advance network w r = some (w', r')) :
    r'.result.trace = r.result.trace ∨ ∃ entry, r'.result.trace = r.result.trace ++ [entry] ∧
      (entry.error = none →
        Tells entry (sk.pass network r.scopes step).2.1 (sk.pass network r.scopes step).2.2) := by
  obtain ⟨running, deed⟩ := deed_of_advance turned
  rcases deed.cases_of_running running with passes | ⟨_, _, collects⟩ | ⟨_, _, _, judges⟩ | ends
  · have leads := resembles.passes gathers blind here deed passes (passes.state_of_valid valid)
    obtain ⟨entry, trace, tells⟩ := leads.shown
    exact .inr ⟨entry, trace, fun _ => tells⟩
  · exact .inl (by rw [collects.same]; rfl)
  · obtain rfl := Option.some.inj (here.symm.trans judges.here)
    obtain ⟨_, entry, trace, tells⟩ := resembles.judges gathers valid running turned judges
    exact .inr ⟨entry, trace, fun _ => tells⟩
  · rcases advance_records here turned with ⟨unwritten, _⟩ | ⟨entry, records, _⟩
    · exact .inl (congrArg RunResult.trace unwritten.result)
    · refine .inr ⟨entry, records.trace, fun clean => ?_⟩
      rcases records.verdict with ⟨next, _⟩ | ⟨_, _, _, _, verdict⟩
      · exact absurd (next.symm.trans ends.next) (Nat.succ_ne_self r.next)
      · have completed := verdict.mp clean
        rcases ends.state with state | state
        · cases completed.symm.trans state
        · cases completed.symm.trans state

/-! ## Whole runs -/

variable {c : Chain} {scopes : RunScopes} {runId : String} {context : Payload}
  {timeout : Option Timeout}

namespace Account

/-- A run that nobody disturbs is like the sketch of it. -/
theorem resembles (valid : c.validate network = .ok ()) (blind : c.IsBlind network)
    (still : ∀ w w', rely w w' → w'.store = w.store)
    (account : Account network rely w₀ (fresh c scopes runId context timeout) calls w r)
    (going : r.state.isTerminal = false) :
    Resembles network w r (.before network scopes w₀.store.outline? c r.next) := by
  induction account with
  | here => exact .of_nil rfl rfl rfl rfl
  | turned before turn ih =>
      obtain ⟨running, deed⟩ := deed_of_advance turn
      obtain ⟨chain, gathers, _⟩ := before.ready running
      have resembles := ih (by rw [running]; rfl)
      have own : _ = scopes := before.path.scopes_eq
      obtain ⟨_, step, here⟩ := running_of_advance turn
      rcases deed.cases_of_running running with passes | ⟨_, _, collects⟩ | ⟨_, _, _, judges⟩ | ends
      · have after := passes.state_of_valid (chain ▸ valid)
        have leads := resembles.passes gathers (chain ▸ blind) here deed passes after
        rw [passes.next, Sketch.before_succ (chain ▸ here)]
        rw [own] at leads
        exact leads.resembles
      · rw [collects.next]
        exact resembles.collects collects
      · cases going.symm.trans judges.isTerminal
      · cases going.symm.trans ends.isTerminal
  | moved before move noTurn ih =>
      rcases move.turns_or_quiet with turned | quiet
      · exact absurd turned noTurn
      · have open_ := quiet.not_isTerminal going
        rw [quiet.next]
        exact (ih open_).of_move (fun running => (before.ready running).2.1) move noTurn open_
  | waited before others ih =>
      have resembles := ih going
      exact ⟨resembles.stack, still _ _ others ▸ resembles.kept, resembles.gathered,
        resembles.origins⟩

/-- The entry of a step that went well shows what the sketch shows of the step. -/
theorem tells (valid : c.validate network = .ok ()) (blind : c.IsBlind network)
    (still : ∀ w w', rely w w' → w'.store = w.store)
    (account : Account network rely w₀ (fresh c scopes runId context timeout) calls w r)
    {i : Nat} {entry : StepTrace} (there : r.result.trace[i]? = some entry)
    (clean : entry.error = none) :
    ∃ step, c.steps[i]? = some step ∧ Tells entry
      ((Sketch.before network scopes w₀.store.outline? c i).pass network scopes step).2.1
      ((Sketch.before network scopes w₀.store.outline? c i).pass network scopes step).2.2 := by
  induction account with
  | here => cases there
  | @turned calls w w' r r' before turn ih =>
      obtain ⟨running, step, here⟩ := running_of_advance turn
      obtain ⟨chain, gathers, _⟩ := before.ready running
      have going : r.state.isTerminal = false := congrArg RunState.isTerminal running
      have resembles := before.resembles valid blind still going
      have own : r.scopes = scopes := before.path.scopes_eq
      rcases resembles.shows gathers (chain ▸ valid) (chain ▸ blind) here turn with
        same | ⟨shown, more, tells⟩
      · exact ih (same ▸ there)
      · rw [more, List.getElem?_append] at there
        split at there
        · exact ih there
        · rename_i beyond
          rw [List.getElem?_singleton] at there
          split at there
          · rename_i first
            obtain rfl := Option.some.inj there
            have length := (before.tallies valid going).length_eq here
            obtain rfl : i = r.next := by omega
            exact ⟨step, chain ▸ here, own ▸ tells clean⟩
          · cases there
  | moved before move noTurn ih =>
      rcases move.turns_or_quiet with turned | quiet
      · exact absurd turned noTurn
      · exact ih (quiet.entries ▸ there)
  | waited before others ih => exact ih there

/-- A run whose last sinks have accepted ends as its sketch tells. -/
theorem verdict (valid : c.validate network = .ok ()) (blind : c.IsBlind network)
    (still : ∀ w w', rely w w' → w'.store = w.store)
    (account : Account network rely w₀ (fresh c scopes runId context timeout) calls w r)
    {outcomes : List (Except Fault SinkResult)} (handed : .handed c.lastIndex outcomes ∈ calls)
    (accepted : Accepted outcomes) :
    Verdict (.before network scopes w₀.store.outline? c c.lastIndex) r := by
  induction account with
  | here => exact absurd handed List.not_mem_nil
  | turned before turn ih =>
      obtain ⟨running, deed⟩ := deed_of_advance turn
      rcases List.mem_append.mp handed with earlier | now
      · exact absurd running (not_running_of_isTerminal (ih earlier).isTerminal)
      · obtain ⟨chain, gathers, _⟩ := before.ready running
        have resembles := before.resembles valid blind still (by rw [running]; rfl)
        obtain ⟨value, told⟩ := delivered_of_mem_callsOfTurn now
        have last := (delivered_of_mem_report told).1
        rcases deed.cases_of_running running with
          passes | ⟨_, _, collects⟩ | ⟨_, _, _, judges⟩ | ends
        · exact absurd last.symm (chain ▸ passes.next_ne_lastIndex (chain ▸ valid))
        · rw [collects.events] at told
          cases List.mem_singleton.mp told
        · rw [last]
          exact (resembles.judges gathers (chain ▸ valid) running turn judges).1
        · exact absurd accepted (ends.notAccepted _ _ _ told)
  | moved before move noTurn ih =>
      have verdict := ih handed
      obtain ⟨_, rfl⟩ := close_eq_ok (move.closes_of_isTerminal verdict.isTerminal)
      exact ⟨verdict.state, verdict.missing⟩
  | waited before others ih => exact ih handed

end Account

/-- **Provenance does not depend on payloads.**  Take two runs of an accepted chain whose operators
see payloads only or hand values over a boundary.  The chain, its partitions and what can be read of
the labels in the store when the runs start are the same, and nobody touches the store meanwhile.
Then contexts, timeouts, payloads and what the components do to them have no say: the entries of a
step that went well in both runs agree on labels, hops and outcome, and if the last sinks accept in
both, the runs end in the same state and miss the same labels. -/
theorem provenance_ignores_payloads {other : Network} (alike : network.Alike other)
    (valid : c.validate network = .ok ()) (blind : c.IsBlind network) (blind' : c.IsBlind other)
    (still : ∀ w w', rely w w' → w'.store = w.store) {v₀ v : World} {s : Run} {calls' : List Call}
    (agree : ∀ p key, v₀.store.outline? p key = w₀.store.outline? p key)
    {runId' : String} {context' : Payload} {timeout' : Option Timeout}
    (one : Account network rely w₀ (fresh c scopes runId context timeout) calls w r)
    (two : Account other rely v₀ (fresh c scopes runId' context' timeout') calls' v s) :
    (∀ (i : Nat) (entry entry' : StepTrace), r.result.trace[i]? = some entry →
        s.result.trace[i]? = some entry' → entry.error = none → entry'.error = none →
          entry.labels = entry'.labels ∧ entry.hops = entry'.hops ∧
            entry.outcome = entry'.outcome) ∧
      ∀ outcomes outcomes', .handed c.lastIndex outcomes ∈ calls → Accepted outcomes →
        .handed c.lastIndex outcomes' ∈ calls' → Accepted outcomes' →
          r.state = s.state ∧
            r.result.error.map ErrorRecord.missing = s.result.error.map ErrorRecord.missing := by
  have valid' := alike.shape.validate valid
  have kept : v₀.store.outline? = w₀.store.outline? := funext fun p => funext fun key => agree p key
  have same : ∀ i, Sketch.before other scopes v₀.store.outline? c i =
      Sketch.before network scopes w₀.store.outline? c i := by
    intro i
    rw [kept]
    exact Sketch.before_congr alike
  constructor
  · intro i entry entry' there there' clean clean'
    obtain ⟨step, here, labels, hops, outcome⟩ := one.tells valid blind still there clean
    obtain ⟨step', here', tells'⟩ := two.tells valid' blind' still there' clean'
    obtain rfl := Option.some.inj (here.symm.trans here')
    rw [same, Sketch.pass_congr alike] at tells'
    obtain ⟨labels', hops', outcome'⟩ := tells'
    exact ⟨labels.trans labels'.symm, hops.trans hops'.symm, outcome.trans outcome'.symm⟩
  · intro outcomes outcomes' handed accepted handed' accepted'
    have verdict := one.verdict valid blind still handed accepted
    have verdict' := two.verdict valid' blind' still handed' accepted'
    rw [same] at verdict'
    exact ⟨verdict.state.trans verdict'.state.symm, verdict.missing.trans verdict'.missing.symm⟩

/-- An operator that doubles payloads. -/
def doubling : Operator where
  id := "double"
  action := .onPayloads fun payloads _ _ => { result := .ok (.list (payloads ++ payloads)) }

/-- A source that gives its context, a sink and the operator. -/
def doubler : Network :=
  { shortcut with
    sources := [("form", { id := "form", category := .httpBody
                           capability := { respond := fun _ context => .returns context } })]
    engine := { operators := [("double", doubling)] } }

/-- The chain from the source over the operator to the sink. -/
def doubled : Chain where
  id := "doubled"
  expected := .command
  steps := [.source "form", .relay "double" [], .sink "shell"]
  steps_ne := nofun

theorem doubled_isBlind : doubled.IsBlind doubler := by
  intro id inside operator found
  obtain rfl : id = "double" := List.mem_singleton.mp inside
  obtain rfl : doubling = operator := Option.some.inj found
  exact .inl ⟨rfl, fun _ _ _ => rfl⟩

/-- A run of this chain delivers the doubled payload that its source gives. -/
theorem exists_account_doubled (payload : Payload) : ∃ calls w r outcomes,
    Account doubler (fun _ _ => False) {} (fresh doubled ⟨"1", none⟩ "1" payload) calls w r ∧
      .handed doubled.lastIndex outcomes ∈ calls ∧ Accepted outcomes ∧
      r.result.final = .map [(.text "sink", .text "shell"),
        (.text "received", .list [payload, payload])] := by
  obtain ⟨w₁, r₁, w₂, r₂, w₃, r₃, w₄, r₄, result, begun, first, second, third, heard, final⟩ :
      ∃ w₁ r₁ w₂ r₂ w₃ r₃ w₄ r₄ result,
        start {} (fresh doubled ⟨"1", none⟩ "1" payload) = .ok (w₁, r₁) ∧
          advance doubler w₁ r₁ = some (w₂, r₂) ∧ advance doubler w₂ r₂ = some (w₃, r₃) ∧
          advance doubler w₃ r₃ = some (w₄, r₄) ∧
          callsOfTurn doubler w₃ r₃ = [.handed doubled.lastIndex [.ok result]] ∧
          r₄.result.final = .map [(.text "sink", .text "shell"),
            (.text "received", .list [payload, payload])] :=
    ⟨_, _, _, _, _, _, _, _, _, rfl, rfl, rfl, rfl, rfl, rfl⟩
  have started : Account doubler (fun _ _ => False) {} (fresh doubled ⟨"1", none⟩ "1" payload)
      [] w₁ r₁ := Account.here.moved (.begins begun) nofun
  have account := ((started.turned first).turned second).turned third
  refine ⟨_, w₄, r₄, [.ok result], account, ?_, ?_, final⟩
  · rw [heard]
    exact List.mem_append_right _ List.mem_cons_self
  · intro outcome inside
    rw [List.mem_singleton.mp inside]
    rfl

/-- Two runs of this chain with different payloads deliver these with the same labels. -/
theorem provenance_ignores_payloads_doubled : ∃ calls w r calls' v s,
    Account doubler (fun _ _ => False) {} (fresh doubled ⟨"1", none⟩ "1" (.int 1))
        calls w r ∧
      Account doubler (fun _ _ => False) {} (fresh doubled ⟨"1", none⟩ "1" (.int 2))
        calls' v s ∧
      r.result.final ≠ s.result.final ∧ r.state = s.state ∧
      ∀ (i : Nat) (entry entry' : StepTrace), r.result.trace[i]? = some entry →
        s.result.trace[i]? = some entry' → entry.error = none → entry'.error = none →
          entry.labels = entry'.labels ∧ entry.hops = entry'.hops ∧
            entry.outcome = entry'.outcome := by
  obtain ⟨calls, w, r, outcomes, one, handed, accepted, final⟩ := exists_account_doubled (.int 1)
  obtain ⟨calls', v, s, outcomes', two, handed', accepted', final'⟩ :=
    exists_account_doubled (.int 2)
  obtain ⟨entries, ends⟩ := provenance_ignores_payloads (.refl doubler) rfl doubled_isBlind
    doubled_isBlind nofun (fun _ _ => rfl) one two
  refine ⟨calls, w, r, calls', v, s, one, two, ?_,
    (ends outcomes outcomes' handed accepted handed' accepted').1, entries⟩
  rw [final, final']
  exact nofun

end TaintFlow.Run
