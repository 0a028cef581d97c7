import TaintFlow.Proofs.Data.Assoc
import TaintFlow.Proofs.Run.Course

/-!
# Runs in the event loop follow courses

What the event loop does with a run is a course of it, on which others may do
anything.  What is proved of all courses therefore holds of every run that comes
back from the loop, be it the caller's own or one of several that were started
together: these are `returned_of_run_beside` and `returned_of_runTogether`.

`Follows` is the invariant of the loop.  It is kept by whoever goes on, and so
by all that happens until it is the caller's turn.
-/

namespace TaintFlow

variable {network : Network}

namespace Run

/-- Others may do anything to the world. -/
def Anything (_ _ : World) : Prop := True

/-- A run of the loop has not been started, or has come some way on a course. -/
inductive OnCourse (network : Network) (origin : Run) : Run → Prop
  | idle (pending : origin.state = .pending) (empty : origin.stack = []) :
      OnCourse network origin origin
  | going {log : List Event} {r : Run} (way : ∀ w, Course network Anything origin log w r)
      (running : r.state = .running) : OnCourse network origin r

/-- A run that has come some way is on a course, or has come back from one. -/
def Progress.Follows (network : Network) (origin : Run) : Progress → Prop
  | .waiting _ r _ | .delivering _ r => OnCourse network origin r
  | .ended (.returned _ r) => ∃ log, Returned network Anything origin log r.result
  | .ended _ => True

variable {origin : Run} {log : List Event} {w : World} {r : Run}

theorem OnCourse.of_course (way : Course network Anything origin log w r)
    (running : r.state = .running) : OnCourse network origin r :=
  .going (fun _ => way.waited trivial) running

/-- A run that has ended on a course comes back from it. -/
theorem conclusion_follows (way : Course network Anything origin log w r) :
    (Progress.ended (conclusion w r)).Follows network origin := by
  unfold conclusion
  split
  · rename_i terminal
    split
    · rename_i closed
      exact ⟨log, _, _, _, _, way, terminal, closed, rfl⟩
    · exact trivial
  · exact trivial

/-- To prepare a turn is to read ahead, or nothing at all. -/
theorem prepare_run (network : Network) (w : World) (r : Run) :
    (prepare network w r).1 = r ∨ ∃ sources loads operator params inputs,
      r.chain.steps[r.next]? = some (.merge sources loads operator params) ∧
        sources[r.gathered.length]? = none ∧
        mergeInputs network w.store r loads = .ok (inputs, (prepare network w r).1) := by
  unfold prepare
  split
  · exact .inl rfl
  · exact .inl rfl
  · rename_i here
    unfold prepareMerge
    split
    · exact .inl rfl
    · rename_i asked
      split
      · rename_i read
        exact .inr ⟨_, _, _, _, _, here, asked, read⟩
      · exact .inl rfl
  · split
    · exact .inl rfl
    · exact .inl rfl
  · exact .inl rfl
  · exact .inl rfl
  · exact .inl rfl
  · exact .inl rfl

theorem Course.prepared (way : Course network Anything origin log w r)
    (running : r.state = .running) :
    (prepare network w r).1.state = .running ∧
      ∃ more, Course network Anything origin (log ++ more) w (prepare network w r).1 := by
  rcases prepare_run network w r with same | ⟨_, _, _, _, _, here, asked, read⟩
  · rw [same]
    exact ⟨running, [], (List.append_nil log).symm ▸ way⟩
  · refine ⟨?_, _, way.readAhead running here asked read⟩
    rw [mergeInputs_run read]
    exact running

/-- A stretch of turns stays on the course. -/
theorem takeStretch_follows (turns : Nat) (way : Course network Anything origin log w r) :
    (takeStretch network turns w r).Follows network origin := by
  induction turns generalizing log w r with
  | zero => exact conclusion_follows way
  | succ turns ih =>
      unfold takeStretch
      split
      · rename_i running
        obtain ⟨still, more, ready⟩ := way.prepared running
        split
        · exact .of_course (way.summoned running) running
        · rename_i prepared
          rw [prepared] at ready still
          exact .of_course ready still
        · rename_i prepared
          rw [prepared] at ready
          split
          · rename_i turn
            exact ih (ready.turned turn)
          · exact trivial
      · exact conclusion_follows way

/-- A run that has waited goes on along its course. -/
theorem OnCourse.resume (course : OnCourse network origin r) (w : World) :
    (r.resume network w).Follows network origin := by
  unfold Run.resume
  split
  · rename_i turn
    cases course with
    | idle pending empty =>
        have running := (deed_of_advance turn).1
        rw [pending] at running
        cases running
    | going way running => exact takeStretch_follows _ ((way w).turned turn)
  · exact trivial

/-- A run sets out on its own course. -/
theorem setOut_follows (network : Network) (w : World) (r : Run) :
    (r.setOut network w).Follows network r := by
  unfold setOut
  split
  · rename_i begun
    exact takeStretch_follows _ (.started begun)
  · exact trivial

/-- A run of the loop goes on along its course. -/
theorem OnCourse.goOn (course : OnCourse network origin r) (w : World) :
    (r.goOn network w).Follows network origin := by
  unfold Run.goOn
  split
  · rename_i pending
    cases course with
    | idle _ empty => exact setOut_follows network w origin
    | going way running =>
        rw [running] at pending
        cases pending
  · exact course.resume w

/-- A call of one of several sinks is a step of the course. -/
theorem OnCourse.calls (course : OnCourse network origin r) {position : Nat} {call : SinkCall}
    (calls : ∀ {log w}, Course network Anything origin log w r → r.state = .running →
      ∃ w', Course network Anything origin log w' { r with calls := r.calls.set position call })
    (named : r.nextSinks ≠ []) :
    OnCourse network origin { r with calls := r.calls.set position call } := by
  cases course with
  | idle pending empty =>
      refine absurd ?_ named
      unfold nextSinks top?
      rw [empty]
      split
      · rename_i none
        cases none
      · rfl
  | going way running =>
      obtain ⟨_, further⟩ := calls (way {}) running
      exact .of_course further running

end Run

namespace EventLoop

open Run

/-! ## What holds of the runs of a loop -/

/-- Something holds of all runs of a loop, and something of the results that the caller has been
told. -/
structure Holds (ofRun : RunOwner → Run → Prop) (ofResult : Nat → RunResult → Prop)
    (l : EventLoop) : Prop where
  runs : ∀ of {r}, l.run? of = some r → ofRun of r
  results : ∀ {n result}, l.outcomes.find? n = some (.ok result) → ofResult n result

section

variable {ofRun ofRun' : RunOwner → Run → Prop} {ofResult : Nat → RunResult → Prop}
  {l : EventLoop} {of other : RunOwner} {r : Run} {n : Nat}

theorem run?_numbered (found : l.runs.find? n = some (.ok r)) : l.run? (.numbered n) = some r := by
  show (l.runs.find? n).bind Except.toOption = some r
  rw [found]
  rfl

theorem run?_put_self (l : EventLoop) (of : RunOwner) (r : Run) :
    (l.put of r).run? of = some r := by
  cases of with
  | caller => rfl
  | numbered n =>
      have there : (l.put (.numbered n) r).runs.find? n = some (.ok r) :=
        Assoc.find?_put_self n _ l.runs
      exact run?_numbered there

theorem run?_put_of_ne (differ : other ≠ of) : (l.put of r).run? other = l.run? other := by
  cases of with
  | caller =>
      cases other with
      | caller => exact absurd rfl differ
      | numbered m => rfl
  | numbered n =>
      cases other with
      | caller => rfl
      | numbered m =>
          have apart : m ≠ n := fun same => differ (congrArg RunOwner.numbered same)
          exact congrArg (Option.bind · Except.toOption) (Assoc.find?_put_of_ne apart _ _)

/-- What is left in a loop after a run has been taken out was there before. -/
theorem run?_erase (found : { l with runs := l.runs.erase n }.run? other = some r) :
    other ≠ .numbered n ∧ l.run? other = some r := by
  cases other with
  | caller => exact ⟨nofun, found⟩
  | numbered m =>
      have found : ((l.runs.erase n).find? m).bind Except.toOption = some r := found
      by_cases same : m = n
      · rw [same, Assoc.find?_erase_self] at found
        cases found
      · rw [Assoc.find?_erase_of_ne same] at found
        exact ⟨fun both => same (RunOwner.numbered.inj both), found⟩

/-- Who goes on when, and for whom the caller waits, does not matter. -/
theorem Holds.of_same {l' : EventLoop} (holds : Holds ofRun ofResult l) (runs : l'.runs = l.runs)
    (own : l'.own = l.own) (outcomes : l'.outcomes = l.outcomes) : Holds ofRun ofResult l' where
  runs := by
    intro of r there
    refine holds.runs of ?_
    rw [← there]
    unfold run?
    rw [runs, own]
  results := by
    rw [outcomes]
    exact holds.results

theorem Holds.put (holds : Holds ofRun ofResult l) (of : RunOwner)
    (kept : ∀ {other r'}, other ≠ of → ofRun other r' → ofRun' other r') (here : ofRun' of r) :
    Holds ofRun' ofResult (l.put of r) where
  runs := by
    intro other r' found
    by_cases same : other = of
    · rw [same, run?_put_self] at found
      rw [same, ← Option.some.inj found]
      exact here
    · rw [run?_put_of_ne same] at found
      exact kept same (holds.runs other found)
  results := by
    cases of with
    | caller => exact holds.results
    | numbered n => exact holds.results

theorem Holds.erase (holds : Holds ofRun ofResult l)
    (kept : ∀ {other r'}, other ≠ .numbered n → ofRun other r' → ofRun' other r') :
    Holds ofRun' ofResult { l with runs := l.runs.erase n } where
  runs := by
    intro other r' found
    obtain ⟨differ, there⟩ := run?_erase found
    exact kept differ (holds.runs other there)
  results := holds.results

theorem tell_runs (l : EventLoop) (n : Nat) (outcome : Except Failure RunResult) :
    (l.tell n outcome).runs = l.runs ∧ (l.tell n outcome).own = l.own ∧
      (l.tell n outcome).count = l.count ∧
      ((l.tell n outcome).outcomes = l.outcomes ∨
        (l.tell n outcome).outcomes = l.outcomes.put n outcome) := by
  have either : ∀ complete : Bool,
      let told := { l with outcomes := l.outcomes.put n outcome }
      let after := if complete then
        { told with awaited := [], agenda := told.agenda.add .caller [.turn, .turn] } else told
      after.runs = l.runs ∧ after.own = l.own ∧ after.count = l.count ∧
        (after.outcomes = l.outcomes ∨ after.outcomes = l.outcomes.put n outcome) := by
    intro complete
    cases complete <;> exact ⟨rfl, rfl, rfl, .inr rfl⟩
  unfold EventLoop.tell
  split
  · exact either _
  · exact ⟨rfl, rfl, rfl, .inl rfl⟩

/-- The caller is told what has come of a run. -/
theorem Holds.tell (holds : Holds ofRun ofResult l) {outcome : Except Failure RunResult}
    (came : ∀ result, outcome = .ok result → ofResult n result) :
    Holds ofRun ofResult (l.tell n outcome) := by
  obtain ⟨runs, own, _, outcomes⟩ := tell_runs l n outcome
  have kept : Holds ofRun ofResult { l with outcomes := (l.tell n outcome).outcomes } := by
    refine ⟨holds.runs, ?_⟩
    intro m result found
    have found : (l.tell n outcome).outcomes.find? m = some (.ok result) := found
    rcases outcomes with same | told
    · rw [same] at found
      exact holds.results found
    · rw [told] at found
      by_cases same : m = n
      · subst same
        rw [Assoc.find?_put_self] at found
        exact came result (Option.some.inj found)
      · rw [Assoc.find?_put_of_ne same] at found
        exact holds.results found
  exact kept.of_same runs own rfl

end

/-! ## Courses in a loop -/

/-- All runs of a loop are on courses, and what has come of those that the caller waits for came
from courses. -/
structure Follows (network : Network) (origin : RunOwner → Option Run) (l : EventLoop) : Prop where
  runs : ∀ of {r}, l.run? of = some r → ∃ o, origin of = some o ∧ OnCourse network o r
  numbered : ∀ {n}, l.runs.has n = true → n < l.count
  outcomes : ∀ {n result}, l.outcomes.find? n = some (.ok result) →
    ∃ o, origin (.numbered n) = some o ∧ ∃ log, Returned network Anything o log result

variable {origin : RunOwner → Option Run} {l : EventLoop}

theorem Follows.holds (follows : l.Follows network origin) :
    l.Holds (fun of r => ∃ o, origin of = some o ∧ OnCourse network o r)
      (fun n result => ∃ o, origin (.numbered n) = some o ∧
        ∃ log, Returned network Anything o log result) :=
  ⟨follows.runs, follows.outcomes⟩

theorem Follows.of_same {l' : EventLoop} (follows : l.Follows network origin)
    (runs : l'.runs = l.runs) (own : l'.own = l.own) (count : l'.count = l.count)
    (outcomes : l'.outcomes = l.outcomes) : l'.Follows network origin := by
  have same := follows.holds.of_same runs own outcomes
  refine ⟨same.runs, ?_, same.results⟩
  rw [runs, count]
  exact follows.numbered

/-- The loop with a run as it is now. -/
theorem Follows.put {of : RunOwner} {o r : Run} (follows : l.Follows network origin)
    (known : origin of = some o) (course : OnCourse network o r)
    (there : ∀ n, of = .numbered n → l.runs.has n = true) :
    (l.put of r).Follows network origin := by
  have now := follows.holds.put of (fun _ kept => kept) ⟨o, known, course⟩
  refine ⟨now.runs, ?_, now.results⟩
  cases of with
  | caller => exact follows.numbered
  | numbered n =>
      intro m inside
      by_cases same : m = n
      · exact follows.numbered (same ▸ there n rfl)
      · have inside : (l.runs.put n (.ok r)).has m = true := inside
        unfold Assoc.has at inside
        rw [Assoc.find?_put_of_ne same] at inside
        exact follows.numbered inside

/-- The loop without a run that has ended. -/
theorem Follows.erase (follows : l.Follows network origin) (n : Nat) :
    { l with runs := l.runs.erase n }.Follows network origin := by
  have left := follows.holds.erase (n := n) fun _ kept => kept
  refine ⟨left.runs, ?_, left.results⟩
  intro m inside
  obtain ⟨entry, found⟩ := Assoc.find?_of_has inside
  have found : (l.runs.erase n).find? m = some entry := found
  by_cases same : m = n
  · rw [same, Assoc.find?_erase_self] at found
    cases found
  · rw [Assoc.find?_erase_of_ne same] at found
    exact follows.numbered (Assoc.has_of_find? found)

/-- The caller is told what has come of a run. -/
theorem Follows.tell (follows : l.Follows network origin) {n : Nat}
    {outcome : Except Failure RunResult}
    (came : ∀ result, outcome = .ok result →
      ∃ o, origin (.numbered n) = some o ∧ ∃ log, Returned network Anything o log result) :
    (l.tell n outcome).Follows network origin := by
  have told := follows.holds.tell came
  obtain ⟨runs, _, count, _⟩ := tell_runs l n outcome
  refine ⟨told.runs, ?_, told.results⟩
  rw [runs, count]
  exact follows.numbered

/-- A run goes on along its course. -/
theorem Follows.goOn (follows : l.Follows network origin) (w : World) (n : Nat) :
    (l.goOn network w n).2.Follows network origin := by
  unfold EventLoop.goOn
  split
  · rename_i r found
    obtain ⟨o, known, course⟩ := follows.runs _ (run?_numbered found)
    have there : ∀ m, RunOwner.numbered n = .numbered m → l.runs.has m = true := by
      intro m same
      rw [← RunOwner.numbered.inj same]
      exact Assoc.has_of_find? found
    have further := course.goOn w
    cases progress : r.goOn network w with
    | waiting w' r' wait =>
        rw [progress] at further
        exact (follows.put known further there).of_same rfl rfl rfl rfl
    | delivering w' r' =>
        rw [progress] at further
        exact (follows.put known further there).of_same rfl rfl rfl rfl
    | ended ending =>
        rw [progress] at further
        have rest := follows.erase n
        cases ending with
        | returned w' r' =>
            show ({ l with runs := l.runs.erase n }.tell n (.ok r'.result)).Follows network origin
            refine rest.tell fun result same => ?_
            rw [← Except.ok.inj same]
            exact ⟨o, known, further⟩
        | raised w' r' mishap =>
            show ({ l with runs := l.runs.erase n }.tell n (.error _)).Follows network origin
            refine rest.tell fun result same => ?_
            cases same
        | stalled w' r' => exact rest
  · rename_i failure _
    show ({ l with runs := l.runs.erase n }.tell n (.error failure)).Follows network origin
    refine (follows.erase n).tell fun result same => ?_
    cases same
  · exact follows

/-- A call of a sink goes on along the course of its run. -/
theorem Follows.callOn (follows : l.Follows network origin) (w : World) (of : RunOwner)
    (position : Nat) : (l.callOn network w of position).2.Follows network origin := by
  unfold EventLoop.callOn
  split
  · exact follows
  · rename_i r found
    obtain ⟨o, known, course⟩ := follows.runs of found
    have there : ∀ n, of = .numbered n → l.runs.has n = true := by
      rintro n rfl
      obtain ⟨entry, inside, _⟩ := Option.bind_eq_some_iff.mp found
      exact Assoc.has_of_find? inside
    split
    · rename_i id value call named top _
      have some_ : r.nextSinks ≠ [] := by
        intro none
        rw [none] at named
        cases named
      dsimp only
      split
      · refine (follows.put known (course.calls ?_ some_) there).of_same rfl rfl rfl rfl
        exact fun way running => ⟨_, way.called position running⟩
      · split
        · exact follows
        · rename_i outcome w' answer
          have further : OnCourse network o
              { r with calls := r.calls.set position (.ended outcome) } :=
            course.calls (fun way running =>
              ⟨_, (way.waited trivial).answered running named top answer⟩) some_
          have after := follows.put known further there
          split
          · exact after.of_same rfl rfl rfl rfl
          · exact after
    · exact follows

/-- Whoever goes on, all runs stay on their courses. -/
theorem Follows.untilCaller (follows : l.Follows network origin) (turns : Nat) (w : World) :
    (EventLoop.untilCaller network turns w l).2.2.Follows network origin := by
  induction turns generalizing l w with
  | zero => exact follows
  | succ turns ih =>
      unfold EventLoop.untilCaller
      split
      · exact follows
      · exact follows.of_same rfl rfl rfl rfl
      · rename_i number agenda _
        have same : { l with agenda }.Follows network origin := follows.of_same rfl rfl rfl rfl
        exact ih (same.goOn w number) _
      · rename_i of position agenda _
        have same : { l with agenda }.Follows network origin := follows.of_same rfl rfl rfl rfl
        exact ih (same.callOn w of position) _

/-! ## What comes back -/

/-- In a loop without runs all are on courses, when what the caller was told before is forgotten. -/
theorem follows_of_isIdle (network : Network) (idle : l.isIdle = true) (own : l.own = none) :
    { l with outcomes := [] }.Follows network fun _ => none := by
  have none_ : l.runs = [] := List.isEmpty_iff.mp idle
  refine ⟨fun of r found => ?_, fun {n} inside => ?_, fun {n result} found => ?_⟩
  · cases of with
    | caller => cases own.symm.trans found
    | numbered n =>
        have found : (l.runs.find? n).bind Except.toOption = some r := found
        rw [none_] at found
        cases found
  · have inside : l.runs.has n = true := inside
    rw [none_] at inside
    cases inside
  · cases found

/-- The caller's own run is of no account where there is none. -/
theorem Follows.forget {other : RunOwner → Option Run} (follows : l.Follows network origin)
    (same : ∀ n, origin (.numbered n) = other (.numbered n)) :
    { l with own := none }.Follows network other where
  runs := by
    intro of r found
    cases of with
    | caller => cases found
    | numbered n =>
        rw [← same n]
        exact follows.runs (.numbered n) found
  numbered := follows.numbered
  outcomes := by
    intro n result found
    rw [← same n]
    exact follows.outcomes found

theorem Follows.of_alone {other : RunOwner → Option Run} (follows : l.Follows network origin)
    (alone : l.own = none) (same : ∀ n, origin (.numbered n) = other (.numbered n)) :
    l.Follows network other := by
  obtain ⟨agenda, runs, own, count, awaited, outcomes⟩ := l
  obtain rfl : own = none := alone
  exact follows.forget same

/-- The caller's own run comes back from its course, and leaves the others on theirs. -/
theorem finish_follows {o : Run} (known : origin .caller = some o) (turns : Nat)
    {progress : Progress} (follows : l.Follows network origin)
    (course : progress.Follows network o) :
    (Progress.ended (finish network turns l progress).1).Follows network o ∧
      (finish network turns l progress).2.Follows network origin ∧
        (finish network turns l progress).2.own = none := by
  have unnumbered : ∀ (l : EventLoop) (n : Nat), RunOwner.caller = .numbered n →
      l.runs.has n = true := by
    intro l n same
    cases same
  induction turns generalizing l progress with
  | zero =>
      cases progress with
      | waiting w r wait =>
          rw [finish]
          exact ⟨trivial, follows.forget fun _ => rfl, rfl⟩
      | delivering w r =>
          rw [finish]
          exact ⟨trivial, follows.forget fun _ => rfl, rfl⟩
      | ended ending =>
          rw [finish]
          exact ⟨course, follows.forget fun _ => rfl, rfl⟩
  | succ turns ih =>
      -- What the caller's run has become while the others went on is on the same course.
      have further : ∀ {r : Run} (w : World) {waiting : EventLoop}, OnCourse network o r →
          waiting.Follows network origin →
            (Progress.ended (finish.goOnWith network turns r w waiting).1).Follows network o ∧
              (finish.goOnWith network turns r w waiting).2.Follows network origin ∧
                (finish.goOnWith network turns r w waiting).2.own = none := by
        intro r w waiting course follows
        have after := follows.untilCaller waiting.turnsLeft w
        rw [finish.goOnWith]
        split
        · rename_i w' l' back
          rw [back] at after
          refine ih after (OnCourse.resume ?_ w')
          cases own : l'.own with
          | none => exact course
          | some r' =>
              obtain ⟨_, same, course⟩ := after.runs .caller own
              rw [← Option.some.inj (known.symm.trans same)] at course
              exact course
        · rename_i w' l' back
          rw [back] at after
          exact ⟨trivial, after.forget fun _ => rfl, rfl⟩
      cases progress with
      | waiting w r wait =>
          rw [finish]
          exact further w course ((follows.put known course (unnumbered l)).of_same rfl rfl rfl rfl)
      | delivering w r =>
          rw [finish]
          exact further w course ((follows.put known course (unnumbered l)).of_same rfl rfl rfl rfl)
      | ended ending =>
          rw [finish]
          exact ⟨course, follows.forget fun _ => rfl, rfl⟩

/-- An own run that was there before is forgotten. -/
theorem finish_forget (network : Network) (turns : Nat) (l : EventLoop) (progress : Progress) :
    finish network turns l progress = finish network turns { l with own := none } progress := by
  cases turns with
  | zero =>
      cases progress with
      | waiting w r wait => rw [finish, finish]
      | delivering w r => rw [finish, finish]
      | ended ending => rw [finish, finish]
  | succ turns =>
      cases progress with
      | waiting w r wait =>
          rw [finish, finish]
          rfl
      | delivering w r =>
          rw [finish, finish]
          rfl
      | ended ending => rw [finish, finish]

/-- The origins of the runs of a loop and of one of the caller's own. -/
def beside (origin : RunOwner → Option Run) (r : Run) : RunOwner → Option Run
  | .caller => some r
  | .numbered n => origin (.numbered n)

/-- A run of the caller's own, while others go on beside it, comes back from a course, and leaves the
others on theirs. -/
theorem run_follows (follows : l.Follows network origin) (w : World) (r : Run) :
    (Progress.ended (l.run network w r).1).Follows network r ∧
      (l.run network w r).2.Follows network origin := by
  unfold EventLoop.run
  split
  · refine ⟨?_, follows⟩
    cases ending : r.run network w with
    | returned w' r' => exact Run.returned_of_run ending
    | raised w' r' mishap => exact trivial
    | stalled w' r' => exact trivial
  · rw [finish_forget]
    have known : beside origin r .caller = some r := rfl
    have alone : { l with own := none }.Follows network (beside origin r) :=
      follows.forget fun _ => rfl
    obtain ⟨came, others, alone⟩ := finish_follows known (r.turnsLeft + 1) alone
      (setOut_follows network w r)
    exact ⟨came, others.of_alone alone fun _ => rfl⟩

theorem returned_of_run_beside {w w' : World} {r r' : Run} {l' : EventLoop}
    (follows : l.Follows network origin) (ran : l.run network w r = (.returned w' r', l')) :
    ∃ log, Returned network Anything r log r'.result := by
  have course := (run_follows follows w r).1
  rw [ran] at course
  exact course

/-- Runs that are gathered have the numbers that come next. -/
theorem find?_zip_range' {α : Type} {entries : List α} {start n : Nat} {entry : α}
    (found : Assoc.find? n ((List.range' start entries.length).zip entries) = some entry) :
    start ≤ n ∧ entries[n - start]? = some entry := by
  induction entries generalizing start with
  | nil => cases found
  | cons first rest ih =>
      rw [List.length_cons, List.range'_succ, List.zip_cons_cons, Assoc.find?] at found
      split at found
      · rename_i same
        subst same
        rw [Nat.sub_self]
        exact ⟨Nat.le_refl _, found⟩
      · obtain ⟨less, there⟩ := ih found
        refine ⟨Nat.le_of_succ_le less, ?_⟩
        rw [show n - start = n - (start + 1) + 1 by omega]
        exact there

/-- The origins of the runs of a loop and of those that are gathered. -/
def joining (l : EventLoop) (origin : RunOwner → Option Run) (runs : List (Except Failure Run)) :
    RunOwner → Option Run
  | .caller => origin .caller
  | .numbered n =>
    if n < l.count then origin (.numbered n) else (runs[n - l.count]?).bind Except.toOption

/-- A loop with more runs, which have not been started. -/
theorem Follows.gather {runs : List (Except Failure Run)} (follows : l.Follows network origin)
    (fresh : ∀ r, .ok r ∈ runs → r.state = .pending ∧ r.stack = []) :
    (l.gather runs).Follows network (l.joining origin runs) := by
  have split_ : ∀ {n entry},
      Assoc.find? n (l.runs ++ (List.range' l.count runs.length).zip runs) = some entry →
        (n < l.count ∧ l.runs.find? n = some entry) ∨
          (l.count ≤ n ∧ runs[n - l.count]? = some entry) := by
    intro n entry found
    rw [Assoc.find?_append] at found
    cases there : l.runs.find? n with
    | some other =>
        rw [there] at found
        exact .inl ⟨follows.numbered (Assoc.has_of_find? there), found⟩
    | none =>
        rw [there] at found
        exact .inr (find?_zip_range' found)
  refine ⟨?_, ?_, ?_⟩
  · intro of r found
    cases of with
    | caller => exact follows.runs .caller found
    | numbered n =>
        obtain ⟨entry, there, same⟩ := Option.bind_eq_some_iff.mp found
        unfold joining
        dsimp only
        rcases split_ there with ⟨less, old⟩ | ⟨more, new⟩
        · rw [if_pos less]
          exact follows.runs (.numbered n) (Option.bind_eq_some_iff.mpr ⟨entry, old, same⟩)
        · rw [if_neg (Nat.not_lt_of_le more), new]
          refine ⟨r, same, ?_⟩
          have inside : .ok r ∈ runs := by
            cases entry with
            | ok other =>
                obtain rfl := Option.some.inj same
                exact List.mem_of_getElem? new
            | error failure => cases same
          obtain ⟨pending, empty⟩ := fresh r inside
          exact .idle pending empty
  · intro n inside
    obtain ⟨entry, there⟩ := Assoc.find?_of_has inside
    show n < l.count + runs.length
    rcases split_ there with ⟨less, _⟩ | ⟨more, new⟩
    · omega
    · obtain ⟨less, _⟩ := List.getElem?_eq_some_iff.mp new
      omega
  · intro n result found
    cases found

/-- Runs that were started together leave all runs on courses. -/
theorem runTogether_follows {runs : List (Except Failure Run)} (follows : l.Follows network origin)
    (fresh : ∀ r, .ok r ∈ runs → r.state = .pending ∧ r.stack = []) (w : World) :
    ∃ other, (l.runTogether network w runs).2.2.Follows network other := by
  unfold EventLoop.runTogether
  split
  · exact ⟨origin, follows⟩
  · have after := (follows.gather fresh).untilCaller (l.gather runs).turnsLeft w
    refine ⟨_, after.runs, after.numbered, ?_⟩
    intro n result found
    cases found

/-- What comes back of runs that were started together comes back from their courses. -/
theorem returned_of_runTogether {w w' : World} {l' : EventLoop} {runs : List (Except Failure Run)}
    {results : List RunResult} (follows : l.Follows network origin)
    (fresh : ∀ r, .ok r ∈ runs → r.state = .pending ∧ r.stack = [])
    (ran : l.runTogether network w runs = (.ok results, w', l')) :
    ∀ result ∈ results, ∃ r, .ok r ∈ runs ∧ ∃ log, Returned network Anything r log result := by
  intro result inside
  unfold EventLoop.runTogether at ran
  split at ran
  · obtain rfl := Except.ok.inj (Prod.mk.inj ran).1
    exact absurd inside List.not_mem_nil
  · have after := (follows.gather fresh).untilCaller (l.gather runs).turnsLeft w
    have came := (Prod.mk.inj ran).1
    split at came
    · have all := Except.mapM_id_eq_ok (Except.mapError_eq_ok.mp came)
      have there : (.ok result : Except Failure RunResult) ∈ results.map Except.ok :=
        List.mem_map_of_mem inside
      rw [← all] at there
      obtain ⟨n, awaited, found⟩ := List.mem_filterMap.mp there
      obtain ⟨o, known, log, returned⟩ := after.outcomes found
      have more : l.count ≤ n := (List.mem_range'_1.mp awaited).1
      have entry : (runs[n - l.count]?).bind Except.toOption = some o := by
        rw [← known]
        exact (if_neg (Nat.not_lt_of_le more)).symm
      obtain ⟨run, here, same⟩ := Option.bind_eq_some_iff.mp entry
      cases run with
      | ok r =>
          obtain rfl := Option.some.inj same
          exact ⟨r, List.mem_of_getElem? here, log, returned⟩
      | error failure => cases same
    · cases came

end EventLoop

end TaintFlow
