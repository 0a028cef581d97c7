import TaintFlow.Proofs.Isolation.Together

/-!
# Who waits in an event loop

Nobody goes on twice in the event loop: whoever waits in it waits for one thing, a
call that waits has not been answered, and its run waits only when no call of it
does.  `Orderly` says so, and is kept by all that is done in the loop.
-/

namespace TaintFlow.EventLoop

open Run

variable {l : EventLoop} {of : RunOwner} {r : Run} {position : Nat}

/-- A call of a run that has not been answered. -/
def Unanswered (l : EventLoop) (of : RunOwner) (position : Nat) : Prop :=
  ∃ r call, l.run? of = some r ∧ r.calls[position]? = some call ∧ SinkCall.outcome? call = none

/-- Whoever waits waits for one thing, and who has nothing to wait for does not. -/
structure Orderly (l : EventLoop) : Prop where
  once : l.agenda.parties.Nodup
  apart : ∀ {of position}, .call of position ∈ l.agenda.parties → .owner of ∉ l.agenda.parties
  unanswered : ∀ {of position}, .call of position ∈ l.agenda.parties → l.Unanswered of position
  present : ∀ {n}, .run n ∈ l.agenda.parties → l.runs.has n = true

/-- Neither a run nor a call of it waits. -/
structure Gone (l : EventLoop) (of : RunOwner) : Prop where
  owner : .owner of ∉ l.agenda.parties
  call : ∀ position, .call of position ∉ l.agenda.parties

theorem has_put_self (l : EventLoop) (n : Nat) (r : Run) :
    (l.put (.numbered n) r).runs.has n = true :=
  Assoc.has_of_find? (Assoc.find?_put_self n _ l.runs)

/-- A run that becomes another one stays in the loop. -/
theorem has_put {n : Nat} (there : l.runs.has n = true) (of : RunOwner) (r : Run) :
    (l.put of r).runs.has n = true := by
  cases of with
  | caller => exact there
  | numbered m =>
      by_cases same : n = m
      · subst same
        exact has_put_self l n r
      · unfold Assoc.has
        rw [← there]
        exact congrArg Option.isSome (Assoc.find?_put_of_ne same _ l.runs)

theorem agenda_put (l : EventLoop) (of : RunOwner) (r : Run) : (l.put of r).agenda = l.agenda := by
  cases of with
  | caller => rfl
  | numbered n => rfl

/-- Whoever goes on next has waited once, and the others wait on. -/
theorem Orderly.next {who : Party} {agenda : Agenda Party} (orderly : l.Orderly)
    (next : l.agenda.next? = some (who, agenda)) :
    { l with agenda }.Orderly ∧ who ∉ agenda.parties := by
  have perm := Agenda.perm_of_next? next
  obtain ⟨absent, once⟩ := List.nodup_cons.mp (perm.nodup_iff.mp orderly.once)
  have kept {other : Party} (inside : other ∈ agenda.parties) : other ∈ l.agenda.parties :=
    perm.mem_iff.mpr (List.mem_cons_of_mem _ inside)
  exact ⟨⟨once, fun inside there => orderly.apart (kept inside) (kept there),
    fun inside => orderly.unanswered (kept inside), fun inside => orderly.present (kept inside)⟩,
    absent⟩

/-- When it is the turn of a run, no call of it waits. -/
theorem Orderly.gone_of_next {agenda : Agenda Party} (orderly : l.Orderly)
    (next : l.agenda.next? = some (.owner of, agenda)) : { l with agenda }.Gone of where
  owner := (orderly.next next).2
  call := by
    intro position inside
    have perm := Agenda.perm_of_next? next
    exact orderly.apart (perm.mem_iff.mpr (List.mem_cons_of_mem _ inside))
      (perm.mem_iff.mpr List.mem_cons_self)

/-- A run may become another one if its calls that wait have not been answered in that. -/
theorem Orderly.put (orderly : l.Orderly)
    (open_ : ∀ position, .call of position ∈ l.agenda.parties →
      ∃ call, r.calls[position]? = some call ∧ SinkCall.outcome? call = none) :
    (l.put of r).Orderly := by
  have same := agenda_put l of r
  refine ⟨?_, fun {other position} => ?_, fun {other position} inside => ?_, fun {n} inside => ?_⟩
  · rw [same]
    exact orderly.once
  · rw [same]
    exact orderly.apart
  · rw [same] at inside
    by_cases mine : other = of
    · subst mine
      obtain ⟨call, called, unanswered⟩ := open_ position inside
      exact ⟨r, call, run?_put_self l other r, called, unanswered⟩
    · obtain ⟨r', call, there, called, unanswered⟩ := orderly.unanswered inside
      exact ⟨r', call, (run?_put_of_ne mine).trans there, called, unanswered⟩
  · rw [same] at inside
    exact has_put (orderly.present inside) of r

/-- A run waits once it has gone. -/
theorem Orderly.add_owner (orderly : l.Orderly) (gone : l.Gone of)
    (there : ∀ n, of = .numbered n → l.runs.has n = true) (wait : Wait) :
    { l with agenda := l.agenda.add (.owner of) wait }.Orderly := by
  have perm := Agenda.perm_add l.agenda (.owner of) wait
  have before {other : RunOwner} {position : Nat}
      (inside : .call other position ∈ (l.agenda.add (.owner of) wait).parties) :
      .call other position ∈ l.agenda.parties := by
    rcases List.mem_cons.mp (perm.mem_iff.mp inside) with same | old
    · cases same
    · exact old
  refine ⟨perm.nodup_iff.mpr (List.nodup_cons.mpr ⟨gone.owner, orderly.once⟩),
    fun {other position} inside waits => ?_, fun inside => orderly.unanswered (before inside),
    fun {n} inside => ?_⟩
  · rcases List.mem_cons.mp (perm.mem_iff.mp waits) with same | old
    · obtain rfl := Party.owner.inj same
      exact gone.call position (before inside)
    · exact orderly.apart (before inside) old
  · rcases List.mem_cons.mp (perm.mem_iff.mp inside) with same | old
    · exact there n (Party.owner.inj same).symm
    · exact orderly.present old

/-- A call waits while its run does not. -/
theorem Orderly.add_call (orderly : l.Orderly) (owner : .owner of ∉ l.agenda.parties)
    (absent : .call of position ∉ l.agenda.parties) (unanswered : l.Unanswered of position)
    (wait : Wait) : { l with agenda := l.agenda.add (.call of position) wait }.Orderly := by
  have perm := Agenda.perm_add l.agenda (.call of position) wait
  have before {other : RunOwner}
      (inside : .owner other ∈ (l.agenda.add (.call of position) wait).parties) :
      .owner other ∈ l.agenda.parties := by
    rcases List.mem_cons.mp (perm.mem_iff.mp inside) with same | old
    · cases same
    · exact old
  refine ⟨perm.nodup_iff.mpr (List.nodup_cons.mpr ⟨absent, orderly.once⟩),
    fun {other position} inside waits => ?_, fun inside => ?_,
    fun inside => orderly.present (before inside)⟩
  · rcases List.mem_cons.mp (perm.mem_iff.mp inside) with same | old
    · obtain ⟨rfl, -⟩ := Party.call.inj same
      exact owner (before waits)
    · exact orderly.apart old (before waits)
  · rcases List.mem_cons.mp (perm.mem_iff.mp inside) with same | old
    · obtain ⟨rfl, rfl⟩ := Party.call.inj same
      exact unanswered
    · exact orderly.unanswered old

/-- Several calls of a run wait. -/
theorem Orderly.add_calls (orderly : l.Orderly) (owner : .owner of ∉ l.agenda.parties)
    {positions : List Nat} (each : positions.Nodup)
    (absent : ∀ position ∈ positions, .call of position ∉ l.agenda.parties)
    (unanswered : ∀ position ∈ positions, l.Unanswered of position) (wait : Wait) :
    { l with agenda := positions.foldl (fun agenda position =>
        agenda.add (.call of position) wait) l.agenda }.Orderly := by
  induction positions generalizing l with
  | nil => exact orderly
  | cons first rest ih =>
      obtain ⟨new, others⟩ := List.nodup_cons.mp each
      have perm := Agenda.perm_add l.agenda (.call of first) wait
      have added := orderly.add_call owner (absent first List.mem_cons_self)
        (unanswered first List.mem_cons_self) wait
      refine ih added ?_ others (fun position inside there => ?_)
        fun position inside => unanswered position (List.mem_cons_of_mem _ inside)
      · intro there
        rcases List.mem_cons.mp (perm.mem_iff.mp there) with same | old
        · cases same
        · exact owner old
      · rcases List.mem_cons.mp (perm.mem_iff.mp there) with same | old
        · obtain rfl := (Party.call.inj same).2
          exact new inside
        · exact absent position (List.mem_cons_of_mem _ inside) old

theorem Gone.put (gone : l.Gone of) (other : RunOwner) (r : Run) : (l.put other r).Gone of := by
  have same := agenda_put l other r
  refine ⟨?_, fun position => ?_⟩
  · rw [same]
    exact gone.owner
  · rw [same]
    exact gone.call position

theorem Orderly.put_gone (orderly : l.Orderly) (gone : l.Gone of) (r : Run) :
    (l.put of r).Orderly :=
  orderly.put fun position inside => absurd inside (gone.call position)

theorem Orderly.await (orderly : l.Orderly) (gone : l.Gone of) (r : Run) (wait : Wait) :
    (l.await of r wait).Orderly := by
  have there : ∀ n, of = .numbered n → (l.put of r).runs.has n = true := by
    rintro n rfl
    exact has_put_self l n r
  have added := (orderly.put_gone gone r).add_owner (gone.put of r) there wait
  rw [agenda_put] at added
  exact added

/-- A run whose calls are all due waits for them. -/
theorem Orderly.deliver (orderly : l.Orderly) (gone : l.Gone of)
    (due : ∀ call ∈ r.calls, call = .due) : (l.deliver of r).Orderly := by
  have unanswered : ∀ position ∈ List.range r.calls.length,
      (l.put of r).Unanswered of position := by
    intro position inside
    have less := List.mem_range.mp inside
    have first := due _ (List.getElem_mem less)
    refine ⟨r, .due, run?_put_self l of r, ?_, rfl⟩
    rw [List.getElem?_eq_getElem less, first]
  have still := gone.put of r
  have added := (orderly.put_gone gone r).add_calls still.owner List.nodup_range
    (fun position _ => still.call position) unanswered [.turn]
  rw [agenda_put] at added
  exact added

/-- A run of which nobody waits may end. -/
theorem Orderly.erase {n : Nat} (orderly : l.Orderly) (gone : l.Gone (.numbered n)) :
    { l with runs := l.runs.erase n }.Orderly := by
  refine ⟨orderly.once, orderly.apart, fun {of position} inside => ?_, fun {m} inside => ?_⟩
  · obtain ⟨r, call, there, rest⟩ := orderly.unanswered inside
    refine ⟨r, call, ?_, rest⟩
    cases of with
    | caller => exact there
    | numbered m =>
        have apart : m ≠ n := by
          rintro rfl
          exact gone.call position inside
        show ((l.runs.erase n).find? m).bind Except.toOption = some r
        rw [Assoc.find?_erase_of_ne apart]
        exact there
  · have apart : m ≠ n := by
      rintro rfl
      exact gone.owner inside
    unfold Assoc.has
    rw [← orderly.present inside]
    exact congrArg Option.isSome (Assoc.find?_erase_of_ne apart l.runs)

/-- While a call is dealt with, the calls that wait are others. -/
theorem Orderly.unanswered_set (orderly : l.Orderly) (found : l.run? of = some r)
    (absent : .call of position ∉ l.agenda.parties) (call : SinkCall) (other : Nat)
    (waits : .call of other ∈ l.agenda.parties) :
    ∃ call', (r.calls.set position call)[other]? = some call' ∧ SinkCall.outcome? call' = none := by
  obtain ⟨r', call', there, called, unanswered⟩ := orderly.unanswered waits
  obtain rfl := Option.some.inj (found.symm.trans there)
  have apart : position ≠ other := by
    rintro rfl
    exact absent waits
  exact ⟨call', (List.getElem?_set_ne apart).trans called, unanswered⟩

theorem Orderly.put_call (orderly : l.Orderly) (found : l.run? of = some r)
    (absent : .call of position ∉ l.agenda.parties) (call : SinkCall) :
    (l.put of { r with calls := r.calls.set position call }).Orderly :=
  orderly.put (orderly.unanswered_set found absent call)

/-- A call begins to wait for what it calls. -/
theorem Orderly.underway (orderly : l.Orderly) (found : l.run? of = some r)
    (owner : .owner of ∉ l.agenda.parties) (absent : .call of position ∉ l.agenda.parties)
    {call : SinkCall} (called : r.calls[position]? = some call) (wait : Wait) :
    { l.put of { r with calls := r.calls.set position .underway } with
      agenda := l.agenda.add (.call of position) wait }.Orderly := by
  have less := (List.getElem?_eq_some_iff.mp called).1
  have added := (orderly.put_call found absent .underway).add_call (agenda_put l of _ ▸ owner)
    (agenda_put l of _ ▸ absent)
    ⟨_, .underway, run?_put_self l of _, List.getElem?_set_self less, rfl⟩ wait
  rw [agenda_put] at added
  exact added

/-- When the last call of a run has been answered, none waits. -/
theorem Orderly.gone_of_delivered (orderly : l.Orderly) (found : l.run? of = some r)
    (owner : .owner of ∉ l.agenda.parties) (absent : .call of position ∉ l.agenda.parties)
    {call : SinkCall}
    (delivered : ({ r with calls := r.calls.set position call } : Run).isDelivered = true) :
    l.Gone of := by
  refine ⟨owner, fun other waits => ?_⟩
  obtain ⟨call', there, silent⟩ := orderly.unanswered_set found absent call other waits
  have heard := List.all_eq_true.mp delivered call' (List.mem_of_getElem? there)
  rw [silent] at heard
  cases heard

/-- The caller is told of a run for which it waits. -/
theorem Orderly.tell {numbers : List Nat} (orderly : l.Orderly) (awaits : l.Awaits numbers)
    (number : Nat) (outcome : Except Failure RunResult) : (l.tell number outcome).Orderly := by
  unfold EventLoop.tell
  split
  · rename_i awaited
    have absent : .caller ∉ l.agenda.parties := by
      rcases awaits.caller with ⟨_, absent⟩ | ⟨none_, _⟩
      · exact fun inside => absent (Agenda.waits_iff.mpr inside)
      · rw [none_] at awaited
        cases awaited
    have gone : l.Gone .caller := by
      refine ⟨absent, fun position inside => ?_⟩
      obtain ⟨_, _, there, _⟩ := orderly.unanswered inside
      cases awaits.nobody.symm.trans there
    have unnumbered : ∀ n, RunOwner.caller = .numbered n → l.runs.has n = true := by
      intro n same
      cases same
    have added := orderly.add_owner gone unnumbered [.turn, .turn]
    have either (complete : Bool) :
        let told := { l with outcomes := l.outcomes.put number outcome }
        (if complete then
          { told with awaited := [], agenda := told.agenda.add .caller [.turn, .turn] }
        else told).Orderly := by
      cases complete with
      | true => exact ⟨added.once, added.apart, added.unanswered, added.present⟩
      | false => exact ⟨orderly.once, orderly.apart, orderly.unanswered, orderly.present⟩
    exact either _
  · exact orderly

/-! ## Quiet loops -/

/-- Nobody runs in the loop, and nobody waits. -/
structure Quiet (l : EventLoop) : Prop where
  idle : l.isIdle = true
  own : l.own = none
  nobody : l.agenda.parties = []

example : ({} : EventLoop).Quiet := ⟨rfl, rfl, rfl⟩

theorem Quiet.vacant (quiet : l.Quiet) : l.Vacant where
  idle := quiet.idle
  nobody := quiet.own
  absent := by
    rw [Agenda.waits_iff, quiet.nobody]
    exact List.not_mem_nil

/-- In a quiet loop those wait that are gathered, each once. -/
theorem Quiet.gather (quiet : l.Quiet) (entries : List (Except Failure Run)) :
    (l.gather entries).Orderly := by
  have perm : (l.gather entries).agenda.parties.Perm
      ((List.range' l.count entries.length).map Party.run) := by
    have added := Agenda.perm_foldl_add Party.run [.turn] (List.range' l.count entries.length)
      l.agenda
    rw [quiet.nobody, List.append_nil] at added
    exact added
  have gathered {who : Party} (inside : who ∈ (l.gather entries).agenda.parties) :
      ∃ number ∈ List.range' l.count entries.length, Party.run number = who :=
    List.mem_map.mp (perm.mem_iff.mp inside)
  refine ⟨perm.nodup_iff.mpr ?_, fun inside => ?_, fun inside => ?_, fun {number} inside => ?_⟩
  · exact List.Nodup.map (fun _ _ same => RunOwner.numbered.inj (Party.owner.inj same))
      List.nodup_range'
  · obtain ⟨_, _, same⟩ := gathered inside
    cases same
  · obtain ⟨_, _, same⟩ := gathered inside
    cases same
  · obtain ⟨_, there, same⟩ := gathered inside
    obtain rfl := RunOwner.numbered.inj (Party.owner.inj same)
    rw [Assoc.has_iff_mem_keys]
    refine List.mem_map.mpr ?_
    have keys : ((List.range' l.count entries.length).zip entries).map Prod.fst =
        List.range' l.count entries.length := List.map_fst_zip (by rw [List.length_range'])
    rw [← keys] at there
    obtain ⟨entry, inside, same⟩ := List.mem_map.mp there
    exact ⟨entry, List.mem_append_right _ inside, same⟩

/-- A loop that has no runs is quiet when it is the caller's turn. -/
theorem Orderly.quiet (orderly : l.Orderly) (own : l.own = none) (idle : l.runs = [])
    (absent : .caller ∉ l.agenda.parties) : l.Quiet where
  idle := List.isEmpty_iff.mpr idle
  own := own
  nobody := by
    have none_ (n : Nat) : l.runs.find? n = none := by
      rw [idle]
      rfl
    refine List.eq_nil_iff_forall_not_mem.mpr fun who inside => ?_
    cases who with
    | owner of =>
        cases of with
        | caller => exact absent inside
        | numbered n =>
            have there := orderly.present inside
            unfold Assoc.has at there
            rw [none_] at there
            cases there
    | call of position =>
        obtain ⟨_, _, there, _⟩ := orderly.unanswered inside
        cases of with
        | caller => exact nomatch own.symm.trans there
        | numbered n =>
            obtain ⟨_, found, _⟩ := Option.bind_eq_some_iff.mp there
            exact nomatch (none_ n).symm.trans found

end TaintFlow.EventLoop
