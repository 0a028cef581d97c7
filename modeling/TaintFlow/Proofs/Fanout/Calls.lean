import Mathlib.Data.List.Nodup
import TaintFlow.Proofs.Run.Hearing

/-!
# Calls of several sinks

A value is handed to the sinks of a list one by one, in any order, and others may do
something in between.  `Handing` keeps account of the calls that have ended: however
the calls are ordered, each place of the list has been served once, with the same
value, when all have ended.  The main statement is `Handing.complete`.
-/

namespace TaintFlow

/-! ## One call -/

/-- A call of the sink at a place of a list, from the world in which it was made to the world after
it. -/
structure Service where
  place : Nat
  before : World
  outcome : Except Fault SinkResult
  after : World

namespace World

variable {network : Network} {w w' : World} {at_ : Location} {id : String} {value : Value}
  {given : Option Timeout} {outcome : Except Fault SinkResult} {s : Sink}

/-- A call of a sink that has ended, as the sink and its caller see it: the payload is in the history
of the capability, and what is written down names the sink, the labels and the hops of the value. -/
structure Served (w : World) (id : String) (s : Sink) (value : Value) (timeout : Option Timeout)
    (outcome : Except Fault SinkResult) (w' : World) : Prop where
  sink : (Run.said outcome).sink = id
  labels : (Run.said outcome).labels = value.labels
  hops : (Run.said outcome).hops = value.hops
  accepted_iff : (Run.said outcome).accepted = true ↔ ∃ raw,
    s.capability.callEnd (w.callsOf (.sink id)) value.payload timeout = .returned raw
  agrees : outcome.isOk = (Run.said outcome).accepted
  history : w'.callsOf (.sink id) =
    s.capability.historyAfter (w.callsOf (.sink id)) value.payload timeout
  others : ∀ owner, owner ≠ .sink id → w'.callsOf owner = w.callsOf owner

theorem callsOf_put (w : World) (owner other : Owner) (history : List Payload) :
    callsOf { w with calls := w.calls.put owner history } other =
      if other = owner then history else w.callsOf other := by
  unfold callsOf
  dsimp only
  rw [Assoc.find?_put]
  split
  · rfl
  · rfl

/-- A sink that is there takes what it is handed or rejects it. -/
theorem served_of_callSink (found : network.sinks.find? id = some s)
    (called : w.callSink network at_ id value given = (some outcome, w')) :
    Served w id s value (timeoutOf network given s.timeout) outcome w' := by
  have history := fun other => w.callsOf_put (.sink id) other (s.capability.historyAfter
    (w.callsOf (.sink id)) value.payload (timeoutOf network given s.timeout))
  have own := (history (.sink id)).trans (if_pos rfl)
  have others := fun other differs => (history other).trans (if_neg differs)
  unfold callSink Sinks.get at called
  rw [found] at called
  dsimp only [callCapability] at called
  split at called
  · cases called
  · rename_i late
    obtain ⟨same, rfl⟩ := Prod.mk.inj called
    obtain rfl := Option.some.inj same
    exact ⟨rfl, rfl, rfl, iff_of_false nofun (by rw [late]; nofun), rfl, own, others⟩
  · rename_i mishap raised
    obtain ⟨same, rfl⟩ := Prod.mk.inj called
    obtain rfl := Option.some.inj same
    exact ⟨rfl, rfl, rfl, iff_of_false nofun (by rw [raised]; nofun), rfl, own, others⟩
  · rename_i raw returned
    obtain ⟨same, rfl⟩ := Prod.mk.inj called
    obtain rfl := Option.some.inj same
    exact ⟨rfl, rfl, rfl, iff_of_true rfl ⟨raw, returned⟩, rfl, own, others⟩

end World

namespace Run

variable {network : Network} {rely : World → World → Prop} {w w₁ w₂ : World} {r : Run}
  {sinks : List String} {value : Value} {log : List Service} {calls : List SinkCall}

/-- The sink at the place of a call has been called with a value. -/
def Serves (network : Network) (r : Run) (sinks : List String) (value : Value) (s : Service) :
    Prop :=
  ∃ id, sinks[s.place]? = some id ∧
    s.before.callSink network r.location id value r.timeout = (some s.outcome, s.after)

/-! ## All calls -/

/-- A run hands a value to the sinks of a list: the calls that have ended, oldest first, the world,
and how far each call has come.  Others may do something at any time. -/
inductive Handing (network : Network) (rely : World → World → Prop) (w : World) (r : Run)
    (sinks : List String) (value : Value) : List Service → World → List SinkCall → Prop
  /-- All are about to be called. -/
  | summoned : Handing network rely w r sinks value [] w (sinks.map fun _ => .due)
  /-- Others do something. -/
  | rested {log : List Service} {w₁ w₂ : World} {calls : List SinkCall}
      (before : Handing network rely w r sinks value log w₁ calls) (others : rely w₁ w₂) :
      Handing network rely w r sinks value log w₂ calls
  /-- A call that is due begins to wait. -/
  | waits {log : List Service} {w₁ : World} {calls : List SinkCall} {place : Nat}
      (before : Handing network rely w r sinks value log w₁ calls)
      (due : calls[place]? = some .due) :
      Handing network rely w r sinks value log w₁ (calls.set place .underway)
  /-- A sink that has not answered answers. -/
  | answers {log : List Service} {w₁ w₂ : World} {calls : List SinkCall} {place : Nat} {id : String}
      {call : SinkCall} {outcome : Except Fault SinkResult}
      (before : Handing network rely w r sinks value log w₁ calls)
      (named : sinks[place]? = some id) (called : calls[place]? = some call)
      (unanswered : call.outcome? = none)
      (answer : w₁.callSink network r.location id value r.timeout = (some outcome, w₂)) :
      Handing network rely w r sinks value (log ++ [⟨place, w₁, outcome, w₂⟩]) w₂
        (calls.set place (.ended outcome))

namespace Handing

theorem length_eq (handing : Handing network rely w r sinks value log w₁ calls) :
    calls.length = sinks.length := by
  induction handing with
  | summoned => exact List.length_map _
  | rested before others ih => exact ih
  | waits before due ih => exact List.length_set.trans ih
  | answers before named called unanswered answer ih => exact List.length_set.trans ih

theorem serves (handing : Handing network rely w r sinks value log w₁ calls) :
    ∀ s ∈ log, Serves network r sinks value s := by
  induction handing with
  | summoned => exact List.forall_mem_nil _
  | rested before others ih => exact ih
  | waits before due ih => exact ih
  | answers before named called unanswered answer ih =>
      exact List.forall_mem_append.mpr ⟨ih, List.forall_mem_singleton.mpr ⟨_, named, answer⟩⟩

/-- What has come of a call is what the sink has said. -/
theorem ended (handing : Handing network rely w r sinks value log w₁ calls) :
    ∀ s ∈ log, calls[s.place]? = some (.ended s.outcome) := by
  induction handing with
  | summoned => exact List.forall_mem_nil _
  | rested before others ih => exact ih
  | @waits _ _ calls place before due ih =>
      intro s inside
      have other : place ≠ s.place := fun same => nomatch (same ▸ due).symm.trans (ih s inside)
      exact (List.getElem?_set_ne other).trans (ih s inside)
  | @answers _ _ _ calls place _ call _ before named called unanswered answer ih =>
      refine List.forall_mem_append.mpr ⟨fun s inside => ?_, List.forall_mem_singleton.mpr ?_⟩
      · have other : place ≠ s.place := by
          intro same
          have here := (same ▸ called).symm.trans (ih s inside)
          rw [Option.some.inj here] at unanswered
          cases unanswered
        exact (List.getElem?_set_ne other).trans (ih s inside)
      · exact List.getElem?_set_self (List.getElem?_eq_some_iff.mp called).1

/-- Nobody is called twice. -/
theorem nodup (handing : Handing network rely w r sinks value log w₁ calls) :
    (log.map Service.place).Nodup := by
  induction handing with
  | summoned => exact List.nodup_nil
  | rested before others ih => exact ih
  | waits before due ih => exact ih
  | @answers _ _ _ _ place _ _ _ before named called unanswered answer ih =>
      rw [List.map_append, List.map_singleton, List.nodup_append]
      refine ⟨ih, List.nodup_singleton place, fun other inside same itself twice => ?_⟩
      obtain ⟨s, inLog, rfl⟩ := List.mem_map.mp inside
      have again : s.place = place := twice.trans (List.mem_singleton.mp itself)
      have here := called.symm.trans (again ▸ before.ended s inLog)
      rw [Option.some.inj here] at unanswered
      cases unanswered

/-- A call that has come to an end is among those that have been made. -/
theorem made (handing : Handing network rely w r sinks value log w₁ calls) {place : Nat}
    {outcome : Except Fault SinkResult} (here : calls[place]? = some (.ended outcome)) :
    ∃ s ∈ log, s.place = place := by
  induction handing with
  | summoned =>
      rw [List.getElem?_map] at here
      obtain ⟨_, _, other⟩ := Option.map_eq_some_iff.mp here
      cases other
  | rested before others ih => exact ih here
  | @waits _ _ _ waiting before due ih =>
      by_cases same : waiting = place
      · rw [same, List.getElem?_set_self (same ▸ (List.getElem?_eq_some_iff.mp due).1)] at here
        cases here
      · exact ih ((List.getElem?_set_ne same).symm.trans here)
  | @answers _ _ _ _ answering _ _ _ before named called unanswered answer ih =>
      by_cases same : answering = place
      · exact ⟨_, List.mem_append_right _ List.mem_cons_self, same⟩
      · obtain ⟨s, inside, at_⟩ := ih ((List.getElem?_set_ne same).symm.trans here)
        exact ⟨s, List.mem_append_left _ inside, at_⟩

/-- **Every place of the list has been served once**, with the value, when all calls have ended; what
has come of them stands in the order of the list. -/
theorem complete {outcomes : List (Except Fault SinkResult)}
    (handing : Handing network rely w r sinks value log w₁ (outcomes.map .ended)) :
    (log.map Service.place).Perm (List.range sinks.length) ∧
      ∀ s ∈ log, Serves network r sinks value s ∧ outcomes[s.place]? = some s.outcome := by
  have length : outcomes.length = sinks.length := (List.length_map _).symm.trans handing.length_eq
  have placed : ∀ s ∈ log, outcomes[s.place]? = some s.outcome := by
    intro s inside
    have here := handing.ended s inside
    rw [List.getElem?_map] at here
    obtain ⟨_, there, same⟩ := Option.map_eq_some_iff.mp here
    exact there.trans (congrArg some (SinkCall.ended.inj same))
  refine ⟨(List.perm_ext_iff_of_nodup handing.nodup List.nodup_range).mpr fun place => ?_,
    fun s inside => ⟨handing.serves s inside, placed s inside⟩⟩
  rw [List.mem_range, List.mem_map]
  constructor
  · rintro ⟨s, inside, rfl⟩
    exact length ▸ (List.getElem?_eq_some_iff.mp (placed s inside)).1
  · intro less
    have here : (outcomes.map SinkCall.ended)[place]? = some (.ended outcomes[place]) := by
      rw [List.getElem?_map, List.getElem?_eq_getElem]
      rfl
    exact handing.made here

end Handing

/-! ## Calls that are made at once -/

/-- Nothing happens but that something is said. -/
def Chatter (w w' : World) : Prop := w' = { w with notices := w'.notices }

theorem getElem?_between {α : Type} (before after : List α) (a : α) :
    (before ++ a :: after)[before.length]? = some a := by
  rw [List.getElem?_append_right (Nat.le_refl _), Nat.sub_self]
  rfl

/-- The next sink of the list answers. -/
theorem Handing.next {done rest : List String} {id : String}
    {outcomes : List (Except Fault SinkResult)} {outcome : Except Fault SinkResult}
    (handing : Handing network rely w r (done ++ id :: rest) value log w₁
      (outcomes.map .ended ++ (id :: rest).map fun _ => .due))
    (answer : w₁.callSink network r.location id value r.timeout = (some outcome, w₂)) :
    Handing network rely w r (done ++ id :: rest) value (log ++ [⟨done.length, w₁, outcome, w₂⟩]) w₂
      ((outcomes ++ [outcome]).map .ended ++ rest.map fun _ => .due) := by
  have length : (outcomes.map SinkCall.ended).length = done.length := by
    have equal := handing.length_eq
    have left : ((id :: rest).map fun _ => SinkCall.due).length = (id :: rest).length :=
      List.length_map _
    rw [List.length_append, List.length_append, left] at equal
    exact Nat.add_right_cancel equal
  have named : (done ++ id :: rest)[done.length]? = some id := getElem?_between ..
  have called : (outcomes.map SinkCall.ended ++ (id :: rest).map fun _ => SinkCall.due)[done.length]? =
      some .due := by
    rw [← length]
    exact getElem?_between ..
  have served := handing.answers named called rfl answer
  rw [List.set_append_right _ _ (Nat.le_of_eq length), length, Nat.sub_self] at served
  rw [List.map_append, List.append_assoc]
  exact served

/-- Sinks that are called one after the other in the order of the list, those of `done` before. -/
theorem handing_foldl {done rest : List String} {outcomes all : List (Except Fault SinkResult)}
    {made : List WholeCall}
    (handing : Handing network Chatter w r (done ++ rest) value log w₁
      (outcomes.map .ended ++ rest.map fun _ => .due))
    (places : log.map Service.place = List.range done.length)
    (same : made.map WholeCall.outcome = outcomes.map some)
    (came : (rest.foldl (callNext network r value) (made, w₁)).1.map WholeCall.outcome =
      all.map some) :
    ∃ log', log'.map Service.place = List.range (done ++ rest).length ∧
      Handing network Chatter w r (done ++ rest) value log'
        (rest.foldl (callNext network r value) (made, w₁)).2 (all.map .ended) := by
  induction rest generalizing done outcomes made log w₁ with
  | nil =>
      obtain rfl : outcomes = all :=
        List.map_injective_iff.mpr (fun _ _ => Option.some.inj) (same.symm.trans came)
      rw [List.map_nil, List.append_nil (outcomes.map _)] at handing
      rw [← List.append_nil done] at places
      exact ⟨log, places, handing⟩
  | cons id rest ih =>
      obtain ⟨others, whole, -, -⟩ := foldl_callNext network r value rest
        (callNext network r value (made, w₁) id)
      obtain ⟨outcome, -, answered⟩ : ∃ outcome ∈ all, some outcome =
          ({ w₁ with notices := [] }.callSink network r.location id value r.timeout).1 := by
        refine List.mem_map.mp (came ▸ ?_)
        rw [List.foldl_cons, whole, List.map_append]
        exact List.mem_append_left _ (List.mem_map.mpr
          ⟨_, List.mem_append_right _ List.mem_cons_self, rfl⟩)
      have quiet : Handing network Chatter w r (done ++ id :: rest) value log { w₁ with notices := [] }
          (outcomes.map .ended ++ (id :: rest).map fun _ => .due) := handing.rested rfl
      have served := quiet.next (Prod.ext answered.symm rfl)
      rw [List.append_cons] at served ⊢
      refine ih served ?_ ?_ came
      · rw [List.map_append, places, List.length_append]
        exact List.range_succ.symm
      · have further : [outcome].map some = [_] := congrArg (fun said => [said]) answered
        exact List.map_append.trans ((congrArg₂ _ same further.symm).trans List.map_append.symm)

/-- Sinks that are called at once are called in the order of the list, and nobody does anything in
between. -/
theorem handing_callSinks {outcomes : List (Except Fault SinkResult)}
    (came : (callSinks network w r value sinks).1 = outcomes.map some) :
    ∃ log, log.map Service.place = List.range sinks.length ∧
      Handing network Chatter w r sinks value log (callSinks network w r value sinks).2
        (outcomes.map .ended) := by
  have begun : Handing network Chatter w r ([] ++ sinks) value [] w
      (([] : List (Except Fault SinkResult)).map .ended ++ sinks.map fun _ => .due) := .summoned
  have unmade : ([] : List WholeCall).map WholeCall.outcome =
      ([] : List (Except Fault SinkResult)).map some := rfl
  obtain ⟨log, places, handing⟩ := handing_foldl begun rfl unmade came
  exact ⟨log, places, handing.rested rfl⟩

/-! ## Calls that end in any order -/

/-- Each of the sinks comes to an end, whenever it is called. -/
def Answering (network : Network) (r : Run) (sinks : List String) (value : Value) : Prop :=
  ∀ id ∈ sinks, ∀ outcome, Answer network r.timeout value id outcome → outcome.isSome = true

/-- Calls that have all come to an end, in the order of the list. -/
theorem exists_outcomes (all : ∀ call ∈ calls, call.outcome?.isSome = true) :
    ∃ outcomes : List (Except Fault SinkResult), calls = outcomes.map .ended := by
  induction calls with
  | nil => exact ⟨[], rfl⟩
  | cons call rest ih =>
      obtain ⟨outcomes, rfl⟩ := ih fun call inRest => all call (List.mem_cons_of_mem _ inRest)
      cases call with
      | ended outcome => exact ⟨outcome :: outcomes, rfl⟩
      | due => cases all _ List.mem_cons_self
      | underway => cases all _ List.mem_cons_self

/-- Of sinks that answer, some that have not answered do so in any order. -/
theorem Handing.further (answering : Answering network r sinks value)
    (handing : Handing network rely w r sinks value log w₁ calls) {order : List Nat}
    (once : order.Nodup) (open_ : ∀ place ∈ order, ∃ call, calls[place]? = some call ∧
      call.outcome? = none) :
    ∃ more w₂ calls', more.map Service.place = order ∧
      Handing network rely w r sinks value (log ++ more) w₂ calls' := by
  induction order generalizing log w₁ calls with
  | nil => exact ⟨[], w₁, calls, rfl, (List.append_nil log).symm ▸ handing⟩
  | cons place rest ih =>
      obtain ⟨fresh, once'⟩ := List.nodup_cons.mp once
      obtain ⟨call, called, unanswered⟩ := open_ place List.mem_cons_self
      have less : place < sinks.length :=
        handing.length_eq ▸ (List.getElem?_eq_some_iff.mp called).1
      have named : sinks[place]? = some sinks[place] := List.getElem?_eq_getElem less
      obtain ⟨outcome, v, answer⟩ : ∃ outcome v, w₁.callSink network r.location sinks[place] value
          r.timeout = (some outcome, v) := by
        obtain ⟨outcome, answered⟩ := Option.isSome_iff_exists.mp
          (answering _ (List.getElem_mem less) _ ⟨w₁, r.location, rfl⟩)
        exact ⟨outcome, _, Prod.ext answered rfl⟩
      have served := handing.answers named called unanswered answer
      obtain ⟨more, w₂, calls', places, after⟩ := ih served once' fun other inside => by
        have differs : place ≠ other := fun same => fresh (same ▸ inside)
        obtain ⟨call, called, unanswered⟩ := open_ other (List.mem_cons_of_mem _ inside)
        exact ⟨call, (List.getElem?_set_ne differs).trans called, unanswered⟩
      refine ⟨⟨place, w₁, outcome, v⟩ :: more, w₂, calls', congrArg (List.cons place) places, ?_⟩
      rw [List.append_cons]
      exact after

end Run

end TaintFlow
