import Mathlib.Data.List.FinRange
import TaintFlow.Proofs.Agenda
import TaintFlow.Proofs.Isolation.Interleaving
import TaintFlow.Proofs.Run.Loop

/-!
# Runs that are started together

The event loop lets runs that were started together take their moves in an order
of its own, which is one of their interleavings.  So each of them returns what it
returns alone: the main statement is `runTogether_isolates`.
-/

namespace TaintFlow

variable {network : Network}

namespace Run

variable {w w' v : World} {r r' s : Run}

/-! ## What a run does while it is its turn -/

/-- Moves of a run that nobody breaks into. -/
def Unbroken (network : Network) (w : World) (r : Run) : World → Run → Prop :=
  Path network (fun _ _ => False) w r

/-- A run gets somewhere by moves that nobody breaks into: to where it waits, or to where it is closed
and returns, or to where it ends without a result. -/
def Progress.Reached (network : Network) (w : World) (r : Run) : Progress → Prop
  | .waiting w' r' _ | .delivering w' r' => Unbroken network w r w' r' ∧ r'.state = .running
  | .ended (.returned w' r') => Unbroken network w r w' r' ∧ r'.result.finished = true
  | .ended (.raised w' r' _) | .ended (.stalled w' r') => Unbroken network w r w' r'

theorem conclusion_reached (path : Unbroken network v s w r)
    (unclosed : r.result.finished = false) :
    (Progress.ended (conclusion w r)).Reached network v s := by
  unfold conclusion
  split
  · rename_i terminal
    split
    · rename_i closed
      exact ⟨path.moved (.closes terminal unclosed closed), (finished_of_close closed).1⟩
    · exact path
  · exact path

theorem takeStretch_reached (turns : Nat) (path : Unbroken network v s w r)
    (unclosed : r.result.finished = false) :
    (takeStretch network turns w r).Reached network v s := by
  induction turns generalizing w r with
  | zero => exact conclusion_reached path unclosed
  | succ turns ih =>
      unfold takeStretch
      split
      · rename_i running
        -- What has been prepared may have been read ahead.
        have ready : Unbroken network v s w (prepare network w r).1 ∧
            (prepare network w r).1.state = .running ∧
            (prepare network w r).1.result.finished = false := by
          rcases prepare_run network w r with same | ⟨_, _, _, _, _, here, asked, read⟩
          · rw [same]
            exact ⟨path, running, unclosed⟩
          · refine ⟨path.moved (.readsAhead running here asked read), ?_⟩
            rw [mergeInputs_run read]
            exact ⟨running, unclosed⟩
        obtain ⟨path', running', unclosed'⟩ := ready
        split
        · exact ⟨path.moved (.summons running), running⟩
        · rename_i prepared
          rw [prepared] at path' running'
          exact ⟨path', running'⟩
        · rename_i prepared
          rw [prepared] at path' unclosed'
          split
          · rename_i turned
            exact ih (path'.moved (.turns turned)) ((finished_of_advance turned).trans unclosed')
          · exact path'
      · exact conclusion_reached path unclosed

/-- A run that goes on takes moves of its own. -/
theorem goOn_reached (network : Network) (w : World) (unclosed : r.result.finished = false) :
    (r.goOn network w).Reached network w r := by
  unfold Run.goOn
  split
  · unfold setOut
    split
    · rename_i begun
      refine takeStretch_reached _ (Path.here.moved (.begins begun)) ?_
      rw [(start_eq_ok begun).2]
      exact unclosed
    · exact .here
  · unfold Run.resume
    split
    · rename_i turned
      exact takeStretch_reached _ (Path.here.moved (.turns turned))
        ((finished_of_advance turned).trans unclosed)
    · exact .here

/-- A run of several goes on while the others wait. -/
theorem Interleaving.unbroken {ι : Type} [DecidableEq ι] {w₀ : World} {origins runs : ι → Run}
    (way : Interleaving network w₀ origins w runs) (i : ι)
    (path : Unbroken network w (runs i) w' r') :
    Interleaving network w₀ origins w' (Function.update runs i r') := by
  induction path with
  | here =>
      rw [Function.update_eq_self]
      exact way
  | @moved w₁ w₂ r₁ r₂ before move ih =>
      have here : Move network w₁ (Function.update runs i r₁ i) w₂ r₂ := by
        rw [Function.update_self]
        exact move
      have further := ih.moved i here
      rw [Function.update_idem] at further
      exact further
  | waited before others ih => exact others.elim

end Run

namespace EventLoop

open Run

variable {n start : Nat} {w₀ w w' : World} {origins runs : Fin n → Run} {l : EventLoop}

/-! ## Interleavings in a loop -/

/-- A run of the loop that has not ended; one that has not started holds no values. -/
def Going (r : Run) : Prop := r.state = .running ∨ r.state = .pending ∧ r.stack = []

theorem Going.isTerminal_eq {r : Run} (going : Going r) : r.state.isTerminal = false := by
  rcases going with running | ⟨pending, _⟩
  · rw [running]
    rfl
  · rw [pending]
    rfl

/-- Only a run that is running hands a value to several sinks. -/
theorem Going.running {r : Run} (going : Going r) {value : Value} (top : r.top? = some value) :
    r.state = .running := by
  rcases going with running | ⟨_, empty⟩
  · exact running
  · have top : r.stack.getLast? = some value := top
    rw [empty] at top
    cases top

/-- A run in the loop is one of those that were started together, as it is now. -/
def Left (start : Nat) (runs : Fin n → Run) (of : RunOwner) (r : Run) : Prop :=
  ∃ i : Fin n, of = .numbered (start + i) ∧ runs i = r ∧ Going r

/-- A result is that of one of the runs, which has been closed. -/
def Came (start : Nat) (runs : Fin n → Run) (number : Nat) (result : RunResult) : Prop :=
  ∃ i : Fin n, number = start + i ∧ (runs i).result = result ∧ (runs i).result.finished = true

/-- The runs of a loop have come where an interleaving of them leads, and so have the results. -/
structure Weaves (network : Network) (w₀ : World) (origins : Fin n → Run) (start : Nat)
    (runs : Fin n → Run) (w : World) (l : EventLoop) : Prop where
  way : Interleaving network w₀ origins w runs
  holds : l.Holds (Left start runs) (Came start runs)

theorem Weaves.of_same {l' : EventLoop} (weaves : l.Weaves network w₀ origins start runs w)
    (same : l'.runs = l.runs) (own : l'.own = l.own) (outcomes : l'.outcomes = l.outcomes) :
    l'.Weaves network w₀ origins start runs w :=
  ⟨weaves.way, weaves.holds.of_same same own outcomes⟩

theorem Weaves.tell (weaves : l.Weaves network w₀ origins start runs w) {number : Nat}
    {outcome : Except Failure RunResult}
    (came : ∀ result, outcome = .ok result → Came start runs number result) :
    (l.tell number outcome).Weaves network w₀ origins start runs w :=
  ⟨weaves.way, weaves.holds.tell came⟩

/-- A run that has not ended has not been closed. -/
theorem unclosed_of_going (idle : ∀ i, Idle (origins i))
    (way : Interleaving network w₀ origins w runs) {i : Fin n} (going : Going (runs i)) :
    (runs i).result.finished = false := by
  refine Bool.eq_false_iff.mpr fun finished => ?_
  cases going.isTerminal_eq.symm.trans
    ((way.path i).isTerminal_of_finished (idle i).unclosed finished)

section

variable {i : Fin n} {r' : Run}

/-- A run that moves leaves the others where they are. -/
theorem left_update {other : RunOwner} {r : Run} (differ : other ≠ .numbered (start + i))
    (left : Left start runs other r) : Left start (Function.update runs i r') other r := by
  obtain ⟨j, rfl, same, going⟩ := left
  have apart : j ≠ i := fun same => differ (by rw [same])
  exact ⟨j, rfl, (Function.update_of_ne apart _ _).trans same, going⟩

/-- A run that moves has had no result before. -/
theorem came_update (unclosed : (runs i).result.finished = false) {number : Nat}
    {result : RunResult} (came : Came start runs number result) :
    Came start (Function.update runs i r') number result := by
  obtain ⟨j, rfl, same, finished⟩ := came
  have apart : j ≠ i := by
    rintro rfl
    cases unclosed.symm.trans finished
  refine ⟨j, rfl, ?_⟩
  rw [Function.update_of_ne apart]
  exact ⟨same, finished⟩

/-- A run that has moved stays in the loop. -/
theorem holds_put (holds : l.Holds (Left start runs) (Came start runs))
    (unclosed : (runs i).result.finished = false) (running : r'.state = .running) :
    (l.put (.numbered (start + i)) r').Holds (Left start (Function.update runs i r'))
      (Came start (Function.update runs i r')) := by
  have now : Left start (Function.update runs i r') (.numbered (start + i)) r' :=
    ⟨i, rfl, Function.update_self i r' runs, .inl running⟩
  obtain ⟨left, came⟩ := holds.put (.numbered (start + i)) left_update now
  exact ⟨left, fun found => came_update unclosed (came found)⟩

/-- A run that has ended leaves the loop. -/
theorem holds_erase (holds : l.Holds (Left start runs) (Came start runs))
    (unclosed : (runs i).result.finished = false) :
    { l with runs := l.runs.erase (start + i) }.Holds (Left start (Function.update runs i r'))
      (Came start (Function.update runs i r')) := by
  obtain ⟨left, came⟩ := holds.erase (n := start + i) left_update
  exact ⟨left, fun found => came_update unclosed (came found)⟩

/-- A run that has been closed has the result that the caller is told. -/
theorem came_of_finished (finished : r'.result.finished = true) {result : RunResult}
    (told : (.ok r'.result : Except Failure RunResult) = .ok result) :
    Came start (Function.update runs i r') (start + i) result := by
  obtain rfl := Except.ok.inj told
  refine ⟨i, rfl, ?_⟩
  rw [Function.update_self]
  exact ⟨rfl, finished⟩

theorem Weaves.put (weaves : l.Weaves network w₀ origins start runs w)
    (unclosed : (runs i).result.finished = false) (path : Unbroken network w (runs i) w' r')
    (running : r'.state = .running) :
    (l.put (.numbered (start + i)) r').Weaves network w₀ origins start
      (Function.update runs i r') w' :=
  ⟨weaves.way.unbroken i path, holds_put weaves.holds unclosed running⟩

theorem Weaves.erase (weaves : l.Weaves network w₀ origins start runs w)
    (unclosed : (runs i).result.finished = false) (path : Unbroken network w (runs i) w' r') :
    { l with runs := l.runs.erase (start + i) }.Weaves network w₀ origins start
      (Function.update runs i r') w' :=
  ⟨weaves.way.unbroken i path, holds_erase weaves.holds unclosed⟩

/-- A run that has come some way has come so in an interleaving. -/
theorem Weaves.settle (weaves : l.Weaves network w₀ origins start runs w)
    (unclosed : (runs i).result.finished = false) {progress : Progress}
    (reached : progress.Reached network w (runs i)) :
    ∃ runs', (l.settle (start + i) progress).2.Weaves network w₀ origins start runs'
      (l.settle (start + i) progress).1 := by
  cases progress with
  | waiting w' r' wait =>
      obtain ⟨path, running⟩ := reached
      exact ⟨_, (weaves.put unclosed path running).of_same rfl rfl rfl⟩
  | delivering w' r' =>
      obtain ⟨path, running⟩ := reached
      exact ⟨_, (weaves.put unclosed path running).of_same rfl rfl rfl⟩
  | ended ending =>
      cases ending with
      | returned w' r' =>
          obtain ⟨path, finished⟩ := reached
          have told : ({ l with runs := l.runs.erase (start + i) }.tell (start + i)
              (.ok r'.result)).Weaves network w₀ origins start (Function.update runs i r') w' :=
            (weaves.erase unclosed path).tell fun _ => came_of_finished finished
          exact ⟨_, told⟩
      | raised w' r' mishap =>
          have told : ({ l with runs := l.runs.erase (start + i) }.tell (start + i)
              (.error (.mishap mishap))).Weaves network w₀ origins start
                (Function.update runs i r') w' :=
            (weaves.erase unclosed reached).tell fun result same => by cases same
          exact ⟨_, told⟩
      | stalled w' r' => exact ⟨_, weaves.erase unclosed reached⟩

end

/-- A run goes on as one of an interleaving. -/
theorem Weaves.goOn (weaves : l.Weaves network w₀ origins start runs w)
    (idle : ∀ i, Idle (origins i)) (number : Nat) :
    ∃ runs', (l.goOn network w number).2.Weaves network w₀ origins start runs'
      (l.goOn network w number).1 := by
  unfold EventLoop.goOn
  split
  · rename_i r found
    obtain ⟨i, same, rfl, going⟩ := weaves.holds.runs _ (run?_numbered found)
    obtain rfl := RunOwner.numbered.inj same
    have unclosed := unclosed_of_going idle weaves.way going
    have reached := goOn_reached network w unclosed
    exact weaves.settle unclosed reached
  · rename_i failure _
    have left : { l with runs := l.runs.erase number }.Weaves network w₀ origins start runs w :=
      ⟨weaves.way, weaves.holds.erase fun _ kept => kept⟩
    have told : ({ l with runs := l.runs.erase number }.tell number (.error failure)).Weaves
        network w₀ origins start runs w := left.tell fun result same => by cases same
    exact ⟨runs, told⟩
  · exact ⟨runs, weaves⟩

/-- A call of a sink goes on as a move of its run. -/
theorem Weaves.callOn (weaves : l.Weaves network w₀ origins start runs w)
    (idle : ∀ i, Idle (origins i)) (of : RunOwner) (position : Nat) :
    ∃ runs', (l.callOn network w of position).2.Weaves network w₀ origins start runs'
      (l.callOn network w of position).1 := by
  unfold EventLoop.callOn
  split
  · exact ⟨runs, weaves⟩
  · rename_i r found
    obtain ⟨i, rfl, rfl, going⟩ := weaves.holds.runs _ found
    have unclosed := unclosed_of_going idle weaves.way going
    split
    · rename_i id value call named top _
      have running := going.running top
      dsimp only
      split
      · have path : Unbroken network w (runs i) w _ := Path.here.moved (.calls position running)
        exact ⟨_, (weaves.put unclosed path running).of_same rfl rfl rfl⟩
      · split
        · rename_i w' answer
          have path : Unbroken network w (runs i) w' (runs i) :=
            Path.here.moved (.misses running named top answer)
          have way := weaves.way.unbroken i path
          rw [Function.update_eq_self] at way
          exact ⟨runs, way, weaves.holds⟩
        · rename_i outcome w' answer
          have path : Unbroken network w (runs i) w' _ :=
            Path.here.moved (.hears running named top answer)
          have after := weaves.put unclosed path running
          split
          · exact ⟨_, after.of_same rfl rfl rfl⟩
          · exact ⟨_, after⟩
    · exact ⟨runs, weaves⟩

/-- Whoever goes on, the runs are interleaved. -/
theorem Weaves.untilCaller (weaves : l.Weaves network w₀ origins start runs w)
    (idle : ∀ i, Idle (origins i)) (turns : Nat) :
    ∃ runs', (EventLoop.untilCaller network turns w l).2.2.Weaves network w₀ origins start runs'
      (EventLoop.untilCaller network turns w l).2.1 := by
  induction turns generalizing l w runs with
  | zero => exact ⟨runs, weaves⟩
  | succ turns ih =>
      unfold EventLoop.untilCaller
      split
      · exact ⟨runs, weaves⟩
      · exact ⟨runs, weaves.of_same rfl rfl rfl⟩
      · rename_i number agenda _
        have same : { l with agenda }.Weaves network w₀ origins start runs w :=
          weaves.of_same rfl rfl rfl
        obtain ⟨_, after⟩ := same.goOn idle number
        exact ih after
      · rename_i of position agenda _
        have same : { l with agenda }.Weaves network w₀ origins start runs w :=
          weaves.of_same rfl rfl rfl
        obtain ⟨_, after⟩ := same.callOn idle of position
        exact ih after

/-! ## When the caller comes back -/

/-- The loops differ in nothing that the caller hears of. -/
structure Unheard (l l' : EventLoop) : Prop where
  own : l'.own = l.own
  awaited : l'.awaited = l.awaited
  outcomes : l'.outcomes = l.outcomes
  agenda : l'.agenda.Waits .caller → l.agenda.Waits .caller

theorem Unheard.refl (l : EventLoop) : Unheard l l := ⟨rfl, rfl, rfl, id⟩

theorem waits_add_of_ne {a : Agenda Party} {who : Party} {wait : Wait} (other : who ≠ .caller)
    (waits : (a.add who wait).Waits .caller) : a.Waits .caller := by
  rcases Agenda.waits_add waits with same | waits
  · exact absurd same.symm other
  · exact waits

theorem unheard_await (l : EventLoop) (number : Nat) (r : Run) (wait : Wait) :
    Unheard l (l.await (.numbered number) r wait) :=
  ⟨rfl, rfl, rfl, waits_add_of_ne nofun⟩

theorem waits_foldl_add {β : Type} (party : β → Party) (others : ∀ b, party b ≠ .caller)
    {wait : Wait} (bs : List β) {a : Agenda Party}
    (waits : (bs.foldl (fun a b => a.add (party b) wait) a).Waits .caller) : a.Waits .caller := by
  induction bs generalizing a with
  | nil => exact waits
  | cons b rest ih => exact waits_add_of_ne (others b) (ih waits)

theorem unheard_deliver (l : EventLoop) (number : Nat) (r : Run) :
    Unheard l (l.deliver (.numbered number) r) :=
  ⟨rfl, rfl, rfl, waits_foldl_add (Party.call (.numbered number)) (fun _ => nofun) _⟩

/-- A run that goes on is not heard of, or the caller is told what has come of it. -/
theorem unheard_goOn (network : Network) (w : World) (l : EventLoop) (number : Nat) :
    Unheard l (l.goOn network w number).2 ∨
      ∃ before outcome, Unheard l before ∧
        (l.goOn network w number).2 = before.tell number outcome := by
  unfold EventLoop.goOn
  split
  · rename_i r _
    cases r.goOn network w with
    | waiting w r wait => exact .inl (unheard_await l number r wait)
    | delivering w r => exact .inl (unheard_deliver l number r)
    | ended ending =>
        have left : Unheard l { l with runs := l.runs.erase number } := ⟨rfl, rfl, rfl, id⟩
        cases ending with
        | returned w r => exact .inr ⟨{ l with runs := _ }, .ok r.result, left, rfl⟩
        | raised w r mishap => exact .inr ⟨{ l with runs := _ }, .error (.mishap mishap), left, rfl⟩
        | stalled w r => exact .inl left
  · rename_i failure _
    exact .inr ⟨{ l with runs := l.runs.erase number }, .error failure, ⟨rfl, rfl, rfl, id⟩, rfl⟩
  · exact .inl (.refl l)

/-- A call of a sink is not heard of. -/
theorem unheard_callOn (network : Network) (w : World) (nobody : l.own = none) (of : RunOwner)
    (position : Nat) : Unheard l (l.callOn network w of position).2 := by
  unfold EventLoop.callOn
  cases of with
  | caller =>
      have none_ : l.run? .caller = none := nobody
      rw [none_]
      exact .refl l
  | numbered number =>
      split
      · exact .refl l
      · split
        · dsimp only
          split
          · exact ⟨rfl, rfl, rfl, waits_add_of_ne nofun⟩
          · split
            · exact .refl l
            · dsimp only
              split
              · exact unheard_await l number _ _
              · exact ⟨rfl, rfl, rfl, id⟩
        · exact .refl l

/-- All runs have come to something, or one has come to nothing. -/
def Decided (numbers : List Nat) (l : EventLoop) : Prop :=
  (∀ number ∈ numbers, l.outcomes.has number = true) ∨
    ∃ number ∈ numbers, ∃ failure, l.outcomes.find? number = some (.error failure)

/-- The caller waits for runs, or it has been told enough to come back. -/
structure Awaits (numbers : List Nat) (l : EventLoop) : Prop where
  nobody : l.own = none
  caller : l.awaited = numbers ∧ ¬ l.agenda.Waits .caller ∨ l.awaited = [] ∧ Decided numbers l

variable {numbers : List Nat}

theorem Awaits.of_unheard {l' : EventLoop} (awaits : l.Awaits numbers) (unheard : Unheard l l') :
    l'.Awaits numbers := by
  obtain ⟨own, awaited, outcomes, agenda⟩ := unheard
  refine ⟨own.trans awaits.nobody, ?_⟩
  unfold Decided
  rw [awaited, outcomes]
  exact awaits.caller.imp_left fun ⟨same, absent⟩ => ⟨same, fun waits => absent (agenda waits)⟩

theorem Awaits.tell (awaits : l.Awaits numbers) (number : Nat)
    (outcome : Except Failure RunResult) : (l.tell number outcome).Awaits numbers := by
  obtain ⟨_, own, _, _⟩ := tell_runs l number outcome
  refine ⟨own.trans awaits.nobody, ?_⟩
  rcases awaits.caller with ⟨same, absent⟩ | ⟨none_, decided⟩
  · unfold EventLoop.tell
    split
    · rename_i awaited
      have inside : number ∈ numbers := same ▸ List.contains_iff_mem.mp awaited
      cases outcome with
      | ok result =>
          dsimp only
          split
          · rename_i complete
            rw [same] at complete
            exact .inr ⟨rfl, .inl (List.all_eq_true.mp complete)⟩
          · exact .inl ⟨same, absent⟩
      | error failure =>
          exact .inr ⟨rfl, .inr ⟨number, inside, failure, Assoc.find?_put_self _ _ _⟩⟩
    · exact .inl ⟨same, absent⟩
  · right
    unfold EventLoop.tell
    rw [none_]
    exact ⟨none_, decided⟩

theorem Awaits.goOn (awaits : l.Awaits numbers) (w : World) (number : Nat) :
    (l.goOn network w number).2.Awaits numbers := by
  rcases unheard_goOn network w l number with unheard | ⟨before, outcome, unheard, told⟩
  · exact awaits.of_unheard unheard
  · rw [told]
    exact (awaits.of_unheard unheard).tell number outcome

/-- Whoever goes on, the caller comes back only when all has been decided. -/
theorem Awaits.untilCaller (awaits : l.Awaits numbers) (turns : Nat)
    (back : (EventLoop.untilCaller network turns w l).1 = true) :
    Decided numbers (EventLoop.untilCaller network turns w l).2.2 := by
  induction turns generalizing l w with
  | zero => cases back
  | succ turns ih =>
      unfold EventLoop.untilCaller at back ⊢
      cases next : l.agenda.next? with
      | none =>
          rw [next] at back
          cases back
      | some pair =>
          obtain ⟨party, agenda⟩ := pair
          obtain ⟨waits, kept⟩ := Agenda.waits_of_next? next
          have fewer : { l with agenda }.Awaits numbers := awaits.of_unheard ⟨rfl, rfl, rfl, kept⟩
          rw [next] at back
          cases party with
          | owner of =>
              cases of with
              | caller =>
                  rcases awaits.caller with ⟨_, absent⟩ | ⟨_, decided⟩
                  · exact absurd waits absent
                  · exact decided
              | numbered number => exact ih (fewer.goOn w number) back
          | call of position =>
              exact ih (fewer.of_unheard (unheard_callOn network w fewer.nobody of position)) back

/-! ## What comes back -/

/-- Nobody runs in the loop, and its caller waits for nothing. -/
structure Vacant (l : EventLoop) : Prop where
  idle : l.isIdle = true
  nobody : l.own = none
  absent : ¬ l.agenda.Waits .caller

theorem awaits_gather (vacant : Vacant l) (entries : List (Except Failure Run)) :
    (l.gather entries).Awaits (List.range' l.count entries.length) where
  nobody := vacant.nobody
  caller := .inl ⟨rfl, fun waits =>
    vacant.absent (waits_foldl_add Party.run (fun _ => nofun) _ waits)⟩

/-- The runs that are gathered in a vacant loop have the numbers that come next. -/
theorem find?_gather (vacant : Vacant l) {entries : List (Except Failure Run)} {number : Nat}
    {entry : Except Failure Run} (found : (l.gather entries).runs.find? number = some entry) :
    l.count ≤ number ∧ entries[number - l.count]? = some entry := by
  have empty : l.runs = [] := List.isEmpty_iff.mp vacant.idle
  have there : Assoc.find? number (l.runs ++ (List.range' l.count entries.length).zip entries) =
    some entry := found
  rw [empty, List.nil_append] at there
  exact find?_zip_range' there

/-- The runs that are gathered are in the loop, and there is no result yet. -/
theorem holds_gather (vacant : Vacant l) {rs : List Run}
    (fresh : ∀ r ∈ rs, r.state = .pending ∧ r.stack = []) :
    (l.gather (rs.map .ok)).Holds (Left l.count rs.get) (Came l.count rs.get) := by
  refine ⟨fun of r found => ?_, fun found => nomatch found⟩
  cases of with
  | caller => exact nomatch vacant.nobody.symm.trans found
  | numbered number =>
      obtain ⟨entry, there, same⟩ := Option.bind_eq_some_iff.mp found
      obtain ⟨more, at_⟩ := find?_gather vacant there
      rw [List.getElem?_map] at at_
      obtain ⟨r', here, rfl⟩ := Option.map_eq_some_iff.mp at_
      obtain rfl := Option.some.inj same
      obtain ⟨less, same⟩ := List.getElem?_eq_some_iff.mp here
      refine ⟨⟨number - l.count, less⟩, ?_, same, .inr (fresh r' (List.mem_of_getElem? here))⟩
      show _ = RunOwner.numbered (l.count + (number - l.count))
      rw [Nat.add_sub_cancel' more]

/-- The entries of a row of numbers are all there is, where there is one for each. -/
theorem filterMap_range' {α : Type} {m : Assoc Nat α} {start n : Nat} {f : Fin n → α}
    (found : ∀ i : Fin n, m.find? (start + i) = some (f i)) :
    (List.range' start n).filterMap (fun number => m.find? number) = List.ofFn f := by
  rw [List.range'_eq_map_range, ← List.map_coe_finRange_eq_range, List.map_map, List.filterMap_map,
    List.ofFn_eq_map]
  exact List.filterMap_eq_map_iff_forall_eq_some.mpr fun i _ => found i

/-- Where all has been decided and nothing has failed, there is a result of every number. -/
theorem told_of_decided (decided : Decided numbers l) {results : List RunResult}
    (all : numbers.filterMap (fun number => l.outcomes.find? number) = results.map .ok)
    {number : Nat} (inside : number ∈ numbers) :
    ∃ result, l.outcomes.find? number = some (.ok result) := by
  have fine {number : Nat} (inside : number ∈ numbers) {failure : Failure} :
      l.outcomes.find? number ≠ some (.error failure) := by
    intro found
    have there : .error failure ∈ numbers.filterMap fun number => l.outcomes.find? number :=
      List.mem_filterMap.mpr ⟨number, inside, found⟩
    rw [all] at there
    obtain ⟨result, -, same⟩ := List.mem_map.mp there
    cases same
  have has : l.outcomes.has number = true := by
    rcases decided with has | ⟨number, inside, failure, found⟩
    · exact has _ inside
    · exact absurd found (fine inside)
  obtain ⟨outcome, found⟩ := Assoc.find?_of_has has
  cases outcome with
  | error failure => exact absurd found (fine inside)
  | ok result => exact ⟨result, found⟩

/-- Where all has been decided and nothing has failed, every run has a result. -/
theorem came_of_decided (holds : l.Holds (Left start runs) (Came start runs))
    (decided : Decided (List.range' start n) l) {results : List RunResult}
    (all : (List.range' start n).filterMap (fun number => l.outcomes.find? number) =
      results.map .ok) (i : Fin n) :
    l.outcomes.find? (start + i) = some (.ok (runs i).result) ∧
      (runs i).result.finished = true := by
  have inside : start + i ∈ List.range' start n :=
    List.mem_range'_1.mpr ⟨Nat.le_add_right _ _, Nat.add_lt_add_left i.isLt _⟩
  obtain ⟨result, found⟩ := told_of_decided decided all inside
  obtain ⟨j, same, rfl, finished⟩ := holds.results found
  obtain rfl : i = j := Fin.ext (Nat.add_left_cancel same)
  exact ⟨found, finished⟩

/-- Where all has been decided and nothing has failed, the results are those of the runs. -/
theorem results_of_decided (holds : l.Holds (Left start runs) (Came start runs))
    (decided : Decided (List.range' start n) l) {results : List RunResult}
    (all : (List.range' start n).filterMap (fun number => l.outcomes.find? number) =
      results.map .ok) :
    (∀ i, (runs i).result.finished = true) ∧ results = List.ofFn fun i => (runs i).result := by
  have came := came_of_decided holds decided all
  refine ⟨fun i => (came i).2, ?_⟩
  have same := (filterMap_range' fun i => (came i).1).symm.trans all
  refine List.map_injective_iff.mpr (fun _ _ => Except.ok.inj) (same.symm.trans ?_)
  rw [List.map_ofFn]
  rfl

/-- Runs that are started together come back when all has been decided and nothing has failed. -/
theorem decided_of_runTogether (vacant : Vacant l) {entries : List (Except Failure Run)}
    (some_ : entries ≠ []) {results : List RunResult} {l' : EventLoop}
    (ran : l.runTogether network w entries = (.ok results, w', l')) :
    ∃ l₁, EventLoop.untilCaller network (l.gather entries).turnsLeft w (l.gather entries) =
        (true, w', l₁) ∧
      l' = { l₁ with awaited := [], outcomes := [] } ∧
      Decided (List.range' l.count entries.length) l₁ ∧
      (List.range' l.count entries.length).filterMap (fun number => l₁.outcomes.find? number) =
        results.map .ok := by
  unfold EventLoop.runTogether at ran
  rw [if_neg fun empty => some_ (List.isEmpty_iff.mp empty)] at ran
  have awaits := awaits_gather vacant entries
  obtain ⟨came, world, left⟩ := Prod.mk.inj ran |>.imp_right Prod.mk.inj
  split at came
  · rename_i back
    refine ⟨_, Prod.ext back (Prod.ext world rfl), left.symm, awaits.untilCaller _ back, ?_⟩
    exact Except.mapM_id_eq_ok (Except.mapError_eq_ok.mp came)
  · cases came

/-- Runs that are started together and come back have come there by an interleaving, in which all have
been closed, and their results come back in order. -/
theorem runTogether_interleaves (vacant : Vacant l) {rs : List Run}
    (fresh : ∀ r ∈ rs, Idle r ∧ r.stack = []) {results : List RunResult} {l' : EventLoop}
    (ran : l.runTogether network w (rs.map .ok) = (.ok results, w', l')) :
    ∃ after : Fin rs.length → Run, Interleaving network w rs.get w' after ∧
      (∀ i, (after i).result.finished = true) ∧ results = List.ofFn fun i => (after i).result := by
  have idle : ∀ i, Idle (rs.get i) := fun i => (fresh _ (List.get_mem rs i)).1
  by_cases empty : rs = []
  · subst empty
    obtain ⟨rfl, rfl, -⟩ : [] = results ∧ w = w' ∧ l = l' := by
      simpa [EventLoop.runTogether] using ran
    exact ⟨_, .begun, fun i => i.elim0, rfl⟩
  · have some_ : rs.map Except.ok ≠ ([] : List (Except Failure Run)) :=
      fun nil => empty (List.map_eq_nil_iff.mp nil)
    have holds := holds_gather vacant fun r inside =>
      ⟨(fresh r inside).1.state, (fresh r inside).2⟩
    have begun : (l.gather (rs.map .ok)).Weaves network w rs.get l.count rs.get w := ⟨.begun, holds⟩
    obtain ⟨after, weaves⟩ := begun.untilCaller idle (l.gather (rs.map .ok)).turnsLeft
    obtain ⟨l₁, back, -, decided, all⟩ := decided_of_runTogether vacant some_ ran
    rw [List.length_map] at decided all
    rw [back] at weaves
    exact ⟨after, weaves.way, results_of_decided weaves.holds decided all⟩

/-- **Runs that are started together do not disturb each other.**  They have partitions of their own,
call nothing that keeps a state, and none names a key of a session or of the process that another one
writes.  If they come back, each has the result that it returns alone, and the values of sessions and
of the process are those that they leave in any other order. -/
theorem runTogether_isolates (vacant : Vacant l) {rs : List Run}
    (fresh : ∀ r ∈ rs, Idle r ∧ r.stack = []) (apart : Apart rs.get)
    (stateless : ∀ r ∈ rs, r.chain.Stateless network) {results : List RunResult} {l' : EventLoop}
    (ran : l.runTogether network w (rs.map .ok) = (.ok results, w', l')) :
    List.Forall₂ (fun r result => ∃ v s, r.run network w = .returned v s ∧ s.result = result)
        rs results ∧
      ∀ (other : World) (others : Fin rs.length → Run),
        Interleaving network w rs.get other others → (∀ i, Settled network other (others i)) →
        ∀ p key, p.scope ≠ .request → w'.store.slot? p key = other.store.slot? p key := by
  obtain ⟨after, way, finished, rfl⟩ := runTogether_interleaves vacant fresh ran
  have idle : ∀ i, Idle (rs.get i) := fun i => (fresh _ (List.get_mem rs i)).1
  have stateless : ∀ i, (rs.get i).chain.Stateless network :=
    fun i => stateless _ (List.get_mem rs i)
  have returned := fun i => (way.stage idle apart stateless i).returned (idle i) (finished i)
  constructor
  · refine List.forall₂_iff_get.mpr ⟨List.length_ofFn.symm, fun i inside inside' => ?_⟩
    obtain ⟨v, s, ran, same⟩ := (returned ⟨i, inside⟩).1
    refine ⟨v, s, ran, same.trans ?_⟩
    rw [List.get_ofFn]
    rfl
  · intro other others way' settled p key shared
    exact way.store_of_leaves stateless (fun i => (returned i).2) way'
      (way'.leaves_of_settled idle apart stateless settled) shared key

end EventLoop

end TaintFlow
