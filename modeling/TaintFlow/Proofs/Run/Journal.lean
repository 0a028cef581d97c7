import TaintFlow.Proofs.Isolation.Alone
import TaintFlow.Proofs.Run.Move
import TaintFlow.Proofs.Store.History

/-!
# What a run remembers of its writes

A run writes down the labels that it stores, by scope and key.  However it is
interleaved with others, what it has written down at a key are the labels of the
last value that it stored there itself, whatever has become of that value since.
The main statement is `Journal.written_iff`.
-/

namespace TaintFlow.Run

open Store (Since since_concat not_since_nil)

variable {network : Network} {rely : World → World → Prop} {w₀ w w' : World} {origin r r' : Run}
  {own : List Store.Edit} {p : Partition} {key : String}

/-! ## Turns and quiet moves -/

/-- A turn has written what it stored, and has written it down. -/
structure Stores (r r' : Run) (target : StoreRef) (value : Value) (p : Partition) : Prop where
  here : r.chain.steps[r.next]? = some (.store target)
  place : target.scope.partition (r.scopes.idFor target.scope) = .ok p
  edits : r.turnEdits = [.put p target.key value.forward value.forward.hops]
  written : r'.written = r.written.put target value.labels

/-- A turn that leaves its run going stores the active value, or changes nothing that the run has
written down. -/
theorem stores_or_same (turned : advance network w r = some (w', r'))
    (going : r'.state.isTerminal = false) :
    (∃ target value p, Stores r r' target value p) ∨ r.turnEdits = [] ∧ r'.written = r.written := by
  obtain ⟨running, deed⟩ := deed_of_advance turned
  cases deed with
  | took here => exact .inr ⟨turnEdits_of_other here nofun, rfl⟩
  | gathered collects =>
      obtain ⟨_, _, _, _, here, _⟩ := collects.asked
      rw [collects.same]
      exact .inr ⟨turnEdits_of_other here nofun, rfl⟩
  | relayed here => exact .inr ⟨turnEdits_of_other here nofun, rfl⟩
  | @stored target value p here top place =>
      refine .inl ⟨target, value, p, here, place, ?_, rfl⟩
      unfold turnEdits
      rw [here]
      simp [edits, top, place]
  | loaded here => exact .inr ⟨turnEdits_of_other here nofun, rfl⟩
  | merged here => exact .inr ⟨turnEdits_of_other here nofun, rfl⟩
  | handedOn here => exact .inr ⟨turnEdits_of_other here nofun, rfl⟩
  | judged judges => exact nomatch going.symm.trans judges.isTerminal
  | ended ends => exact nomatch going.symm.trans ends.isTerminal

/-- A quiet move that leaves its run going changes neither the store nor what the run has written
down. -/
theorem Move.kept_of_quiet (move : Move network w r w' r') (quiet : Quiet r r')
    (going : r'.state.isTerminal = false) : w'.store = w.store ∧ r'.written = r.written := by
  cases move with
  | begins begun =>
      obtain ⟨_, _, store, _⟩ := start_congr w begun
      rw [(start_eq_ok begun).2]
      exact ⟨store, rfl⟩
  | turns turned =>
      obtain ⟨running, deed⟩ := deed_of_advance turned
      rcases deed.cases_of_running running with passes | ⟨_, _, collects⟩ | ⟨_, _, _, judges⟩ | ends
      · exact absurd quiet.next passes.next_ne
      · obtain ⟨_, _, _, _, _, _, gave⟩ := collects.asked
        rw [collects.same]
        exact ⟨World.store_of_callSource gave, rfl⟩
      · exact nomatch going.symm.trans judges.isTerminal
      · exact nomatch going.symm.trans ends.isTerminal
  | readsAhead running here asked read =>
      rw [mergeInputs_run read]
      exact ⟨rfl, rfl⟩
  | summons running => exact ⟨rfl, rfl⟩
  | calls position running => exact ⟨rfl, rfl⟩
  | hears running named top answer | misses running named top answer =>
      exact ⟨World.store_of_callSink answer, rfl⟩
  | closes terminal unclosed closed =>
      have still : r'.state = r.state := by rw [(close_eq_ok closed).2]; rfl
      rw [still, terminal] at going
      cases going

/-! ## The journal of a run -/

/-- The value is the last that was put at the key. -/
def LastPut (own : List Store.Edit) (p : Partition) (key : String) (value : Value) : Prop :=
  ∃ writtenAt, Since (fun _ e => e = .put p key value writtenAt) (fun e => ¬ e.Puts p key) own

theorem not_lastPut_nil {value : Value} : ¬ LastPut [] p key value :=
  fun ⟨_, since⟩ => not_since_nil since

theorem lastPut_put {q : Partition} {other : String} {value written : Value} {writtenAt : Int} :
    LastPut (own ++ [.put q other written writtenAt]) p key value ↔
      if q = p ∧ other = key then written = value else LastPut own p key value := by
  unfold LastPut
  simp only [since_concat]
  split
  · rename_i same
    obtain ⟨rfl, rfl⟩ := same
    simp [Store.Edit.Puts]
  · rename_i differs
    have none_ (latest : Value) (at_ : Int) :
        Store.Edit.put q other written writtenAt ≠ .put p key latest at_ := by
      intro same
      obtain ⟨rfl, rfl, _⟩ := Store.Edit.put.inj same
      exact differs ⟨rfl, rfl⟩
    simp [Store.Edit.Puts, none_]

/-- A path of a run, with the edits that the steps of the run have made on it. -/
inductive Journal (network : Network) (rely : World → World → Prop) (w₀ : World) (r₀ : Run) :
    List Store.Edit → World → Run → Prop
  | here : Journal network rely w₀ r₀ [] w₀ r₀
  | turned {own : List Store.Edit} {w w' : World} {r r' : Run}
      (before : Journal network rely w₀ r₀ own w r)
      (turn : advance network w r = some (w', r')) :
      Journal network rely w₀ r₀ (own ++ r.turnEdits) w' r'
  | moved {own : List Store.Edit} {w w' : World} {r r' : Run}
      (before : Journal network rely w₀ r₀ own w r)
      (move : Move network w r w' r') (quiet : Quiet r r') :
      Journal network rely w₀ r₀ own w' r'
  | waited {own : List Store.Edit} {w w' : World} {r : Run}
      (before : Journal network rely w₀ r₀ own w r)
      (others : rely w w') : Journal network rely w₀ r₀ own w' r

/-- Every path has a journal. -/
theorem Path.journal (path : Path network rely w₀ origin w r) :
    ∃ own, Journal network rely w₀ origin own w r := by
  induction path with
  | here => exact ⟨[], .here⟩
  | moved before move ih =>
      obtain ⟨own, journal⟩ := ih
      rcases move.turns_or_quiet with turned | quiet
      · exact ⟨_, journal.turned turned⟩
      · exact ⟨own, journal.moved move quiet⟩
  | waited before others ih =>
      obtain ⟨own, journal⟩ := ih
      exact ⟨own, journal.waited others⟩

theorem Journal.path (journal : Journal network rely w₀ origin own w r) :
    Path network rely w₀ origin w r := by
  induction journal with
  | here => exact .here
  | turned before turn ih => exact ih.moved (.turns turn)
  | moved before move quiet ih => exact ih.moved move
  | waited before others ih => exact ih.waited others

/-- A run that has not ended had not ended before. -/
theorem Quiet.going (quiet : Quiet r r') (going : r'.state.isTerminal = false) :
    r.state.isTerminal = false := by
  rcases quiet.state with same | ⟨pending, _⟩
  · rwa [same] at going
  · rw [pending]
    rfl

/-- A run means different keys by different references. -/
theorem ref_eq_of_place {scopes : RunScopes} {ref other : StoreRef} {p : Partition}
    (place : ref.scope.partition (scopes.idFor ref.scope) = .ok p)
    (there : other.scope.partition (scopes.idFor other.scope) = .ok p)
    (key : ref.key = other.key) : ref = other := by
  have scope : ref.scope = other.scope :=
    (Scope.partition_eq_ok place).1.symm.trans (Scope.partition_eq_ok there).1
  cases ref
  cases other
  congr

/-- **What a run has written down.**  At a key of a run that has not ended, the labels are those of the
value that the run last stored there. -/
theorem Journal.written_iff (nothing : origin.written = [])
    (journal : Journal network rely w₀ origin own w r) (going : r.state.isTerminal = false)
    {ref : StoreRef} {p : Partition}
    (place : ref.scope.partition (origin.scopes.idFor ref.scope) = .ok p) (labels : LabelSet) :
    r.written.find? ref = some labels ↔
      ∃ value, LastPut own p ref.key value ∧ value.labels = labels := by
  induction journal with
  | here =>
      rw [nothing]
      exact ⟨nofun, fun ⟨_, last, _⟩ => absurd last not_lastPut_nil⟩
  | @turned own w w' r r' before turn ih =>
      obtain ⟨running, deed⟩ := deed_of_advance turn
      have so_far := ih (by rw [running]; rfl)
      rcases stores_or_same turn going with ⟨target, value, q, stores⟩ | ⟨nil, same⟩
      · rw [stores.edits, stores.written, Assoc.find?_put]
        have target_place := stores.place
        rw [before.path.scopes_eq] at target_place
        simp only [lastPut_put]
        by_cases same : ref = target
        · subst same
          obtain rfl := Except.ok.inj (place.symm.trans target_place)
          simp
        · have differs : ¬ (q = p ∧ target.key = ref.key) := by
            rintro ⟨rfl, key⟩
            exact same (ref_eq_of_place place target_place key.symm)
          rw [if_neg same]
          simp only [if_neg differs]
          exact so_far
      · rw [nil, List.append_nil, same]
        exact so_far
  | moved before move quiet ih =>
      rw [(move.kept_of_quiet quiet going).2]
      exact ih (quiet.going going)
  | waited before others ih => exact ih going

end TaintFlow.Run
