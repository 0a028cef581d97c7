import TaintFlow.Proofs.Invocations.Order
import TaintFlow.Proofs.Invocations.Stretch

/-!
# Invocations of runs that are started together

In the event loop each of several sinks is called once, so runs that were started
together are part of a concert, as `runTogether_performs` says.  When they come back,
the counters have grown by what is in their results: the main statement is
`runTogether_accounted`.
-/

namespace TaintFlow.EventLoop

open Run

variable {network : Network} {l : EventLoop} {of : RunOwner} {position : Nat}

/-! ## Runs that the caller has not been told of -/

/-- The runs in the loop are such as could start, and the caller has not been told of them. -/
def Untold (l : EventLoop) : Prop :=
  ∀ number entry, l.runs.find? number = some entry →
    l.outcomes.has number = false ∧ ∃ r, entry = .ok r

theorem Untold.put {l' : EventLoop} {number : Nat} {r r' : Run} (untold : l.Untold)
    (found : l.run? (.numbered number) = some r)
    (kept : l'.runs = (l.put (.numbered number) r').runs) (outcomes : l'.outcomes = l.outcomes) :
    l'.Untold := by
  intro other entry there
  rw [kept] at there
  rw [outcomes]
  by_cases same : other = number
  · subst same
    obtain ⟨_, before, _⟩ := Option.bind_eq_some_iff.mp found
    have now : (l.put (.numbered other) r').runs.find? other = some (.ok r') :=
      Assoc.find?_put_self other _ l.runs
    exact ⟨(untold _ _ before).1, r', Option.some.inj (there.symm.trans now)⟩
  · exact untold _ _ ((Assoc.find?_put_of_ne same _ l.runs).symm.trans there)

theorem Untold.erase (untold : l.Untold) (number : Nat) :
    { l with runs := l.runs.erase number }.Untold := by
  intro other entry there
  have there : (l.runs.erase number).find? other = some entry := there
  by_cases same : other = number
  · rw [same, Assoc.find?_erase_self] at there
    cases there
  · rw [Assoc.find?_erase_of_ne same] at there
    exact untold _ _ there

theorem Untold.tell {number : Nat} (untold : l.Untold) (gone : l.runs.find? number = none)
    (outcome : Except Failure RunResult) : (l.tell number outcome).Untold := by
  obtain ⟨runs, _, _, outcomes⟩ := tell_runs l number outcome
  intro other entry there
  rw [runs] at there
  obtain ⟨fresh, started⟩ := untold _ _ there
  refine ⟨?_, started⟩
  rcases outcomes with same | told
  · rw [same]
    exact fresh
  · have apart : other ≠ number := by
      rintro rfl
      exact nomatch gone.symm.trans there
    rw [told]
    unfold Assoc.has
    rw [Assoc.find?_put_of_ne apart]
    exact fresh

theorem untold_gather (vacant : l.Vacant) (rs : List Run) : (l.gather (rs.map .ok)).Untold := by
  intro number entry there
  have here := (find?_gather vacant there).2
  rw [List.getElem?_map] at here
  obtain ⟨r, -, same⟩ := Option.map_eq_some_iff.mp here
  exact ⟨rfl, r, same.symm⟩

/-! ## Concerts in a loop -/

variable {n start : Nat} {w₀ w w' : World} {asked : List String} {others : List Run}
  {runs : Fin n → Run}

/-- The runs of a loop, together with others, have come where a concert leads. -/
structure Performs (network : Network) (w₀ : World) (asked : List String) (others : List Run)
    (start : Nat) (runs : Fin n → Run) (w : World) (l : EventLoop) : Prop where
  concert : ∃ more, Concert network w₀ (asked ++ more) w (others ++ List.ofFn runs)
  holds : l.Holds (Left start runs) (Came start runs)
  orderly : l.Orderly
  awaits : l.Awaits (List.range' start n)
  untold : l.Untold

theorem ofFn_update {α : Type} (f : Fin n → α) (i : Fin n) (a : α) :
    List.ofFn (Function.update f i a) = (List.ofFn f).set i a := by
  refine List.ext_getElem (by simp) fun j inside _ => ?_
  rw [List.getElem_ofFn, List.getElem_set, List.getElem_ofFn]
  by_cases same : (i : Nat) = j
  · subst same
    rw [if_pos rfl]
    exact Function.update_self i a f
  · rw [if_neg same]
    have apart : (⟨j, by simpa using inside⟩ : Fin n) ≠ i := fun both => same (both ▸ rfl)
    exact Function.update_of_ne apart a f

/-- A run of several acts while the others wait. -/
theorem concert_update {i : Fin n} {r' : Run}
    (concert : ∃ more, Concert network w₀ (asked ++ more) w (others ++ List.ofFn runs))
    (acts : ∃ more, Acts network w (runs i) more w' r') :
    ∃ more, Concert network w₀ (asked ++ more) w'
      (others ++ List.ofFn (Function.update runs i r')) := by
  obtain ⟨before, concert⟩ := concert
  obtain ⟨more, acts⟩ := acts
  have here : (others ++ List.ofFn runs)[others.length + i]? = some (runs i) := by
    rw [List.getElem?_append_right (Nat.le_add_right _ _), Nat.add_sub_cancel_left]
    simp
  have after := concert.acts here acts
  rw [List.set_append_right _ _ (Nat.le_add_right _ _), Nat.add_sub_cancel_left,
    ← ofFn_update, List.append_assoc] at after
  exact ⟨_, after⟩

namespace Performs

theorem next {who : Party} {agenda : Agenda Party}
    (performs : l.Performs network w₀ asked others start runs w)
    (next : l.agenda.next? = some (who, agenda)) :
    { l with agenda }.Performs network w₀ asked others start runs w where
  concert := performs.concert
  holds := performs.holds.of_same rfl rfl rfl
  orderly := (performs.orderly.next next).1
  awaits := performs.awaits.of_unheard ⟨rfl, rfl, rfl, (Agenda.waits_of_next? next).2⟩
  untold := performs.untold

theorem accredited (performs : l.Performs network w₀ asked others start runs w) (i : Fin n) :
    Accredited network w (runs i) := by
  obtain ⟨_, concert⟩ := performs.concert
  exact concert.accredited _ (List.mem_append_right _ (List.mem_ofFn.mpr ⟨i, rfl⟩))

theorem tell {number : Nat} (performs : l.Performs network w₀ asked others start runs w)
    (gone : l.runs.find? number = none) (outcome : Except Failure RunResult)
    (came : ∀ result, outcome = .ok result → Came start runs number result) :
    (l.tell number outcome).Performs network w₀ asked others start runs w where
  concert := performs.concert
  holds := performs.holds.tell came
  orderly := performs.orderly.tell performs.awaits number outcome
  awaits := performs.awaits.tell number outcome
  untold := performs.untold.tell gone outcome

section

variable {i : Fin n} {r' : Run}

/-- A run that has acted stays in the loop, which lets it or its calls wait. -/
theorem put {l' : EventLoop} (performs : l.Performs network w₀ asked others start runs w)
    (found : l.run? (.numbered (start + i)) = some (runs i)) (unclosed : (runs i).result.finished = false)
    (acts : ∃ more, Acts network w (runs i) more w' r') (running : r'.state = .running)
    (kept : l'.runs = (l.put (.numbered (start + i)) r').runs) (orderly : l'.Orderly)
    (unheard : Unheard l l') :
    l'.Performs network w₀ asked others start (Function.update runs i r') w' where
  concert := concert_update performs.concert acts
  holds := (holds_put performs.holds unclosed running).of_same kept unheard.own unheard.outcomes
  orderly := orderly
  awaits := performs.awaits.of_unheard unheard
  untold := performs.untold.put found kept unheard.outcomes

/-- A run that has ended leaves the loop. -/
theorem erase (performs : l.Performs network w₀ asked others start runs w)
    (gone : l.Gone (.numbered (start + i))) (unclosed : (runs i).result.finished = false)
    (acts : ∃ more, Acts network w (runs i) more w' r') :
    { l with runs := l.runs.erase (start + i) }.Performs network w₀ asked others start
      (Function.update runs i r') w' where
  concert := concert_update performs.concert acts
  holds := holds_erase performs.holds unclosed
  orderly := performs.orderly.erase gone
  awaits := performs.awaits.of_unheard ⟨rfl, rfl, rfl, id⟩
  untold := performs.untold.erase _

/-- A run whose turn it has been has come some way. -/
theorem settle (performs : l.Performs network w₀ asked others start runs w)
    (found : l.run? (.numbered (start + i)) = some (runs i)) (gone : l.Gone (.numbered (start + i))) (unclosed : (runs i).result.finished = false)
    {progress : Progress} (performed : progress.Performed network w (runs i)) :
    ∃ runs' : Fin n → Run,
      (l.settle (start + i) progress).2.Performs network w₀ asked others start runs'
        (l.settle (start + i) progress).1 := by
  have orderly := performs.orderly
  cases progress with
  | waiting w' r' wait =>
      obtain ⟨acts, running, -⟩ := performed
      exact ⟨_, performs.put found unclosed acts running rfl (orderly.await gone r' wait)
        (unheard_await l _ r' wait)⟩
  | delivering w' r' =>
      obtain ⟨acts, running, due⟩ := performed
      exact ⟨_, performs.put found unclosed acts running rfl (orderly.deliver gone due)
        (unheard_deliver l _ r')⟩
  | ended ending =>
      cases ending with
      | returned w' r' =>
          obtain ⟨acts, finished⟩ := performed
          have left := performs.erase gone unclosed acts
          exact ⟨_, left.tell (Assoc.find?_erase_self _ _) (.ok r'.result) fun _ => came_of_finished finished⟩
      | raised w' r' mishap =>
          have left := performs.erase gone unclosed performed
          exact ⟨_, left.tell (Assoc.find?_erase_self _ _) (.error (.mishap mishap)) fun _ => nofun⟩
      | stalled w' r' => exact ⟨_, performs.erase gone unclosed performed⟩

end

/-- A run goes on as one of a concert. -/
theorem goOn {number : Nat} (performs : l.Performs network w₀ asked others start runs w)
    (gone : l.Gone (.numbered number)) :
    ∃ runs' : Fin n → Run, (l.goOn network w number).2.Performs network w₀ asked others start runs'
      (l.goOn network w number).1 := by
  unfold EventLoop.goOn
  split
  · rename_i r found
    obtain ⟨i, same, rfl, going⟩ := performs.holds.runs _ (run?_numbered found)
    obtain rfl := RunOwner.numbered.inj same
    have accredited := performs.accredited i
    exact performs.settle (run?_numbered found) gone (accredited.unclosed going.isTerminal_eq)
      (goOn_performed accredited going.isTerminal_eq)
  · rename_i found
    obtain ⟨_, _, same⟩ := performs.untold _ _ found
    cases same
  · exact ⟨runs, performs⟩

/-- A call of a sink goes on as an act of its run. -/
theorem callOn (performs : l.Performs network w₀ asked others start runs w)
    (owner : .owner of ∉ l.agenda.parties) (absent : .call of position ∉ l.agenda.parties)
    (unanswered : l.Unanswered of position) :
    ∃ runs' : Fin n → Run,
      (l.callOn network w of position).2.Performs network w₀ asked others start runs'
        (l.callOn network w of position).1 := by
  unfold EventLoop.callOn
  split
  · exact ⟨runs, performs⟩
  · rename_i r found
    obtain ⟨i, rfl, rfl, going⟩ := performs.holds.runs _ found
    have unclosed := (performs.accredited i).unclosed going.isTerminal_eq
    have orderly := performs.orderly
    split
    · rename_i sink value call named top called
      have running := going.running top
      have silent : SinkCall.outcome? call = none := by
        obtain ⟨r', call', there, called', silent⟩ := unanswered
        obtain rfl := Option.some.inj (found.symm.trans there)
        obtain rfl := Option.some.inj (called.symm.trans called')
        exact silent
      dsimp only
      split
      · rename_i hop rest wait
        have due : call = .due := by
          split at wait
          · rfl
          · cases wait
        subst due
        exact ⟨_, performs.put found unclosed ⟨_, .acted .here (.calls position running called)⟩ running
          rfl (orderly.underway found owner absent called (hop :: rest))
            ⟨rfl, rfl, rfl, waits_add_of_ne nofun⟩⟩
      · split
        · rename_i w' answer
          have acts : ∃ more, Acts network w (runs i) more w' (runs i) :=
            ⟨_, .acted .here (.misses running named top answer)⟩
          have concert := concert_update performs.concert acts
          rw [Function.update_eq_self] at concert
          exact ⟨runs, concert, performs.holds, orderly, performs.awaits, performs.untold⟩
        · rename_i outcome w' answer
          have acts : ∃ more, Acts network w (runs i) more w' _ :=
            ⟨_, .acted .here (.hears running named top called silent answer)⟩
          split
          · rename_i delivered
            have gone := orderly.gone_of_delivered found owner absent delivered
            exact ⟨_, performs.put found unclosed acts running rfl (orderly.await gone _ _)
              (unheard_await l _ _ _)⟩
          · have now := orderly.put_call found absent (.ended outcome)
            exact ⟨_, performs.put found unclosed acts running rfl now ⟨rfl, rfl, rfl, id⟩⟩
    · exact ⟨runs, performs⟩

/-- Whoever goes on, the runs are part of a concert; and if the caller comes back it waits no more. -/
theorem untilCaller (performs : l.Performs network w₀ asked others start runs w) (turns : Nat) :
    ∃ runs' : Fin n → Run,
      (EventLoop.untilCaller network turns w l).2.2.Performs network w₀ asked others start runs'
          (EventLoop.untilCaller network turns w l).2.1 ∧
        ((EventLoop.untilCaller network turns w l).1 = true →
          .caller ∉ (EventLoop.untilCaller network turns w l).2.2.agenda.parties) := by
  induction turns generalizing l w runs with
  | zero => exact ⟨runs, performs, nofun⟩
  | succ turns ih =>
      unfold EventLoop.untilCaller
      split
      · exact ⟨runs, performs, nofun⟩
      · rename_i next
        exact ⟨runs, performs.next next, fun _ => (performs.orderly.next next).2⟩
      · rename_i next
        obtain ⟨_, after⟩ := (performs.next next).goOn (performs.orderly.gone_of_next next)
        exact ih after
      · rename_i next
        have perm := Agenda.perm_of_next? next
        have waited := perm.mem_iff.mpr List.mem_cons_self
        have owner := performs.orderly.apart waited
        obtain ⟨_, after⟩ := (performs.next next).callOn
          (fun inside => owner (perm.mem_iff.mpr (List.mem_cons_of_mem _ inside)))
          (performs.orderly.next next).2 (performs.orderly.unanswered waited)
        exact ih after

end Performs

/-! ## Runs that come back together -/

/-- Where all runs have come back, none is left in the loop. -/
theorem runs_eq_nil (holds : l.Holds (Left start runs) (Came start runs)) (untold : l.Untold)
    {results : List RunResult}
    (decided : Decided (List.range' start n) l)
    (all : (List.range' start n).filterMap (fun number => l.outcomes.find? number) =
      results.map .ok) : l.runs = [] := by
  cases left : l.runs with
  | nil => rfl
  | cons entry rest =>
      obtain ⟨number, outcome⟩ := entry
      have there : l.runs.find? number = some outcome := by
        rw [left, Assoc.find?, if_pos rfl]
      obtain ⟨silent, r, rfl⟩ := untold number outcome there
      obtain ⟨i, same, -⟩ := holds.runs _ (run?_numbered there)
      obtain rfl := RunOwner.numbered.inj same
      have told := Assoc.has_of_find? (came_of_decided holds decided all i).1
      cases silent.symm.trans told

/-- Where runs that were started together come back, all of them could start. -/
theorem started_of_runTogether (quiet : l.Quiet) {entries : List (Except Failure Run)}
    (idle : ∀ r, .ok r ∈ entries → r.state = .pending ∧ r.stack = [])
    {results : List RunResult} {l' : EventLoop}
    (ran : l.runTogether network w entries = (.ok results, w', l')) :
    ∃ rs : List Run, entries = rs.map .ok := by
  by_cases empty : entries = []
  · exact ⟨[], empty⟩
  · obtain ⟨l₁, back, -, decided, all⟩ := decided_of_runTogether quiet.vacant empty ran
    have follows := follows_of_isIdle network quiet.idle quiet.own
    have after := (follows.gather idle).untilCaller (l.gather entries).turnsLeft w
    have back : EventLoop.untilCaller network (l.gather entries).turnsLeft w
        (({ l with outcomes := [] } : EventLoop).gather entries) = (true, w', l₁) := back
    rw [back] at after
    have each : ∀ entry ∈ entries, ∃ r, id entry = .ok r := by
      intro entry inside
      obtain ⟨i, less, rfl⟩ := List.mem_iff_getElem.mp inside
      have number : l.count + i ∈ List.range' l.count entries.length :=
        List.mem_range'_1.mpr ⟨Nat.le_add_right _ _, Nat.add_lt_add_left less _⟩
      obtain ⟨result, found⟩ := told_of_decided decided all number
      obtain ⟨r, origin, -⟩ := after.outcomes found
      have origin : (entries[l.count + i - l.count]?).bind Except.toOption = some r := by
        rw [← origin]
        exact (if_neg (Nat.not_lt_of_le (Nat.le_add_right _ _))).symm
      rw [Nat.add_sub_cancel_left, List.getElem?_eq_getElem less] at origin
      have origin : entries[i].toOption = some r := origin
      cases entry : entries[i] with
      | ok other => exact ⟨other, rfl⟩
      | error failure =>
          rw [entry] at origin
          cases origin
    obtain ⟨rs, whole⟩ := Except.exists_mapM_eq_ok.mpr each
    exact ⟨rs, Except.mapM_id_eq_ok whole⟩

/-- **Runs that are started together and come back are part of a concert.**  All of them have been
closed, their results come back in order, and the loop is left as quiet as it was. -/
theorem runTogether_performs (quiet : l.Quiet) {entries : List (Except Failure Run)}
    (concert : Concert network w₀ asked w others)
    (fresh_ : ∀ r, .ok r ∈ entries → ∃ chain scopes runId context timeout,
      chain.validate network = .ok () ∧ r = fresh chain scopes runId context timeout)
    {results : List RunResult} {l' : EventLoop}
    (ran : l.runTogether network w entries = (.ok results, w', l')) :
    l'.Quiet ∧ ∃ more runs, Concert network w₀ (asked ++ more) w' (others ++ runs) ∧
      (∀ r ∈ runs, r.result.finished = true) ∧ runs.map Run.result = results := by
  have idle : ∀ r, .ok r ∈ entries → r.state = .pending ∧ r.stack = [] := by
    intro r inside
    obtain ⟨_, _, _, _, _, _, rfl⟩ := fresh_ r inside
    exact ⟨rfl, rfl⟩
  obtain ⟨rs, rfl⟩ := started_of_runTogether quiet idle ran
  have among {r : Run} (inside : r ∈ rs) : (.ok r : Except Failure Run) ∈ rs.map .ok :=
    List.mem_map_of_mem inside
  have joined := concert.joinAll fun r inside => fresh_ r (among inside)
  by_cases empty : rs = []
  · subst empty
    obtain ⟨rfl, rfl, rfl⟩ : [] = results ∧ w = w' ∧ l = l' := by
      simpa [EventLoop.runTogether] using ran
    exact ⟨quiet, [], [], by simpa using concert, List.forall_mem_nil _, rfl⟩
  · have some_ : rs.map Except.ok ≠ ([] : List (Except Failure Run)) :=
      fun nil => empty (List.map_eq_nil_iff.mp nil)
    have awaits := awaits_gather quiet.vacant (rs.map .ok)
    rw [List.length_map] at awaits
    have begun : (l.gather (rs.map .ok)).Performs network w₀ asked others l.count rs.get w := by
      refine ⟨⟨[], ?_⟩, holds_gather quiet.vacant fun r inside => idle r (among inside),
        quiet.gather _, awaits, untold_gather quiet.vacant rs⟩
      rw [List.append_nil, List.ofFn_get]
      exact joined
    obtain ⟨after, performs, absent⟩ := begun.untilCaller (l.gather (rs.map .ok)).turnsLeft
    obtain ⟨l₁, back, rfl, decided, all⟩ := decided_of_runTogether quiet.vacant some_ ran
    rw [List.length_map] at decided all
    rw [back] at performs absent
    obtain ⟨finished, rfl⟩ := results_of_decided performs.holds decided all
    obtain ⟨more, concert⟩ := performs.concert
    refine ⟨?_, more, List.ofFn after, concert, ?_, List.map_ofFn⟩
    · have none_ := runs_eq_nil performs.holds performs.untold decided all
      have quiet := performs.orderly.quiet performs.awaits.nobody none_ (absent rfl)
      exact ⟨quiet.idle, quiet.own, quiet.nobody⟩
    · intro r inside
      obtain ⟨i, rfl⟩ := List.mem_ofFn.mp inside
      exact finished i

end TaintFlow.EventLoop
