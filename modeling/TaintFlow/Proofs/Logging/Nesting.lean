import Mathlib.Data.List.Basic
import Mathlib.Data.List.Induction
import TaintFlow.Logging.Correlation
import TaintFlow.Proofs.Data.Assoc

/-!
# Scopes that nest

Scopes are entered and left in the manner of brackets, and so are spans, which are
scopes that give no ids.  As long as every exit meets an open scope, an id is the
one that the innermost open scope gives, of those that give one, and an exit brings
back what held before the scope was entered: the main statement is `scopes_nest`.
-/

namespace TaintFlow

/-! ## What scopes give -/

theorem CorrelationField.ofText?_eq_some_iff {name : String} {field : CorrelationField} :
    ofText? name = some field ↔ name = field.text := by
  constructor
  · intro found
    unfold ofText? at found
    have same : (field.text == name) = true := (List.find?_eq_some_iff_append.mp found).1
    exact (eq_of_beq same).symm
  · rintro rfl
    cases field <;> rfl

namespace Correlation

/-- Is every name that of an id? -/
def isKnown (ids : GivenIds) : Bool :=
  ids.all fun (name, _) => (CorrelationField.ofText? name).isSome

theorem unknownNames_eq_nil_iff {ids : GivenIds} : unknownNames ids = [] ↔ isKnown ids = true := by
  have sorted := List.mergeSort_perm
    ((ids.map Prod.fst).filter fun name => (CorrelationField.ofText? name).isNone)
    fun a b => !decide (b < a)
  unfold unknownNames isKnown
  rw [← List.length_eq_zero_iff, sorted.length_eq, List.length_eq_zero_iff, List.filter_eq_nil_iff,
    List.forall_mem_map, List.all_eq_true]
  refine forall₂_congr fun (name, id) _ => ?_
  dsimp only
  cases CorrelationField.ofText? name <;> simp

/-- The id that a scope gives for a field, unless it gives nothing. -/
def setBy (ids : GivenIds) (field : CorrelationField) : Option CorrelationId :=
  (Assoc.find? field.text ids).join

/-- The id that the innermost of the scopes gives, of those that give one. -/
def innermost? (opened : List GivenIds) (field : CorrelationField) : Option CorrelationId :=
  opened.findSome? (setBy · field)

/-- If each name comes once, it does not matter where. -/
theorem given_eq_setBy {ids : GivenIds} (once : (Assoc.keys ids).Nodup) (field : CorrelationField) :
    given ids field = setBy ids field := by
  have each (found : Option CorrelationId) :
      ids.foldl (fun found (name, id) =>
        if CorrelationField.ofText? name = some field then id.or found else found) found =
          (setBy ids field).or found := by
    induction ids generalizing found with
    | nil => rfl
    | cons entry rest ih =>
        obtain ⟨name, id⟩ := entry
        obtain ⟨absent, once⟩ := List.nodup_cons.mp once
        rw [List.foldl_cons, ih once]
        unfold setBy
        simp only [CorrelationField.ofText?_eq_some_iff, Assoc.find?]
        by_cases same : name = field.text
        · have later : Assoc.find? field.text rest = Option.none :=
            Option.not_isSome_iff_eq_none.mp fun there =>
              absent (same ▸ Assoc.has_iff_mem_keys.mp there)
          rw [if_pos same, if_pos same, later]
          rfl
        · rw [if_neg same, if_neg same]
  unfold given
  rw [each, Option.or_none]

end Correlation

/-! ## Sequences of moves -/

/-- What is done to scopes: one that gives ids is entered, or a span of a trace, or the innermost
one is left, at its end or by an exception. -/
inductive ScopeMove where
  | enter (ids : GivenIds)
  | span (trace : Nat)
  | exit (raised : Option Mishap)

namespace ScopeMove

/-- The move opens a scope or a span; a scope that gives an id of an unknown name is refused. -/
def Opens : ScopeMove → Prop
  | enter ids => Correlation.isKnown ids = true
  | span _ => True
  | exit _ => False

/-- What the open scopes give, innermost first, after a move.  An exit has to meet an open scope. -/
def openAfter? (opened : List GivenIds) : ScopeMove → Option (List GivenIds)
  | enter ids => some (if Correlation.isKnown ids then ids :: opened else opened)
  | span _ => some ([] :: opened)
  | exit _ =>
    match opened with
    | [] => none
    | _ :: outer => some outer

/-- Every scope that is opened by the moves is left by them, and refusals stand between. -/
inductive Balanced : List ScopeMove → Prop where
  | nil : Balanced []
  | refused {ids : GivenIds} {rest : List ScopeMove} (unknown : Correlation.isKnown ids = false)
      (after : Balanced rest) : Balanced (enter ids :: rest)
  | block {opening : ScopeMove} {body rest : List ScopeMove} {raised : Option Mishap}
      (opens : opening.Opens) (inside : Balanced body) (after : Balanced rest) :
      Balanced (opening :: (body ++ exit raised :: rest))

theorem Balanced.append {moves more : List ScopeMove} (balanced : Balanced moves)
    (after : Balanced more) : Balanced (moves ++ more) := by
  induction balanced with
  | nil => exact after
  | refused unknown _ ih => exact .refused unknown ih
  | block opens inside _ _ ih =>
      rw [List.cons_append, List.append_assoc]
      exact .block opens inside ih

end ScopeMove

open ScopeMove

/-- What the scopes give that are open after the moves, innermost first, if every exit has met an
open scope. -/
def openScopes? (moves : List ScopeMove) : Option (List GivenIds) := moves.foldlM openAfter? []

theorem openScopes?_append (moves more : List ScopeMove) :
    openScopes? (moves ++ more) =
      (openScopes? moves).bind fun opened => more.foldlM openAfter? opened :=
  List.foldlM_append

theorem openScopes?_concat (moves : List ScopeMove) (move : ScopeMove) :
    openScopes? (moves ++ [move]) = (openScopes? moves).bind (openAfter? · move) := by
  rw [openScopes?_append]
  exact congrArg _ (funext fun opened => bind_pure (openAfter? opened move))

/-- The innermost scope that is open after the moves was opened after the earlier ones. -/
def OpenedAfter (earlier moves : List ScopeMove) : Prop :=
  ∃ opening body, moves = earlier ++ opening :: body ∧ opening.Opens ∧ Balanced body

namespace OpenedAfter

variable {earlier middle moves : List ScopeMove}

theorem length_lt (opened : OpenedAfter earlier moves) : earlier.length < moves.length := by
  obtain ⟨opening, body, rfl, -, -⟩ := opened
  rw [List.length_append, List.length_cons]
  omega

theorem of_opens (moves : List ScopeMove) {opening : ScopeMove} (opens : opening.Opens) :
    OpenedAfter moves (moves ++ [opening]) := ⟨opening, [], rfl, opens, .nil⟩

/-- A refusal leaves the innermost scope open. -/
theorem refused {ids : GivenIds} (opened : OpenedAfter earlier moves)
    (unknown : Correlation.isKnown ids = false) :
    OpenedAfter earlier (moves ++ [.enter ids]) := by
  obtain ⟨opening, body, rfl, opens, inside⟩ := opened
  refine ⟨opening, body ++ [.enter ids], ?_, opens, inside.append (.refused unknown .nil)⟩
  rw [List.append_assoc, List.cons_append]

/-- When the innermost scope is left, the one around it is innermost. -/
theorem exit (opened : OpenedAfter middle moves) (around : OpenedAfter earlier middle)
    (raised : Option Mishap) : OpenedAfter earlier (moves ++ [.exit raised]) := by
  obtain ⟨opening, body, rfl, opens, inside⟩ := opened
  obtain ⟨opening', body', rfl, opens', inside'⟩ := around
  have block : Balanced (opening :: (body ++ [.exit raised])) := .block opens inside .nil
  refine ⟨opening', body' ++ opening :: (body ++ [.exit raised]), ?_, opens', inside'.append block⟩
  simp only [List.append_assoc, List.cons_append]

end OpenedAfter

/-- If a scope is open, some move has opened it. -/
theorem exists_openedAfter {moves : List ScopeMove} {ids : GivenIds} {outer : List GivenIds}
    (opened : openScopes? moves = some (ids :: outer)) :
    ∃ earlier, OpenedAfter earlier moves ∧ openScopes? earlier = some outer := by
  -- What an exit leaves open was opened before the scope that it closes, so the induction is on the
  -- number of moves.
  induction size : moves.length using Nat.strongRecOn generalizing moves ids outer with
  | ind size ih =>
  obtain rfl | ⟨init, last, rfl⟩ := List.eq_nil_or_concat' moves
  · cases opened
  rw [List.length_append, List.length_singleton] at size
  rw [openScopes?_concat] at opened
  obtain ⟨before, there, after⟩ := Option.bind_eq_some_iff.mp opened
  cases last with
  | span trace =>
      obtain ⟨-, rfl⟩ := List.cons.inj (Option.some.inj after)
      exact ⟨init, .of_opens init trivial, there⟩
  | enter given =>
      cases known : Correlation.isKnown given with
      | true =>
          rw [openAfter?, known] at after
          obtain ⟨-, rfl⟩ := List.cons.inj (Option.some.inj after)
          exact ⟨init, .of_opens init known, there⟩
      | false =>
          rw [openAfter?, known] at after
          obtain rfl := Option.some.inj after
          obtain ⟨earlier, opened, rest⟩ := ih init.length (by omega) there rfl
          exact ⟨earlier, opened.refused known, rest⟩
  | exit raised =>
      cases before with
      | nil => cases after
      | cons closed before =>
          obtain rfl := Option.some.inj after
          obtain ⟨middle, opened, rest⟩ := ih init.length (by omega) there rfl
          have shorter := opened.length_lt
          obtain ⟨earlier, around, rest'⟩ := ih middle.length (by omega) rest rfl
          exact ⟨earlier, opened.exit around raised, rest'⟩

namespace Scopes

/-- The scopes after a move, and the exception that it raises or lets pass. -/
def move (s : Scopes) : ScopeMove → Scopes × Option Mishap
  | .enter ids =>
    match s.enter ids with
    | .ok inside => (inside, none)
    | .error refusal => (s, some refusal)
  | .span trace => (s.span trace, none)
  | .exit raised => (s.exit, raised)

/-- The scopes after a sequence of moves. -/
def run (s : Scopes) (moves : List ScopeMove) : Scopes :=
  moves.foldl (fun s move => (s.move move).1) s

theorem run_append (s : Scopes) (moves more : List ScopeMove) :
    s.run (moves ++ more) = (s.run moves).run more := List.foldl_append

theorem move_of_known (s : Scopes) {ids : GivenIds} (known : Correlation.isKnown ids = true) :
    s.move (.enter ids) =
      (⟨s.now.inside ids, s.trace, (s.now, s.trace) :: s.outer⟩, none) := by
  unfold move enter
  dsimp only
  rw [Correlation.unknownNames_eq_nil_iff.mpr known]

/-- An entry that gives an id of an unknown name is refused, and changes nothing. -/
theorem move_of_unknown (s : Scopes) {ids : GivenIds} (unknown : Correlation.isKnown ids = false) :
    s.move (.enter ids) = (s, some (.badType ("unknown correlation field(s): " ++
      ", ".intercalate (Correlation.unknownNames ids)))) := by
  have names : Correlation.unknownNames ids ≠ [] := fun none =>
    Bool.false_ne_true (unknown.symm.trans (Correlation.unknownNames_eq_nil_iff.mp none))
  have refused : s.enter ids = .error (.badType ("unknown correlation field(s): " ++
      ", ".intercalate (Correlation.unknownNames ids))) := by
    unfold enter
    split
    · exact absurd ‹_› names
    · rfl
  unfold move
  dsimp only
  rw [refused]

/-! ## What an exit brings back -/

/-- A scope that has been opened is left for the scopes before it. -/
theorem exit_of_opens (s : Scopes) {opening : ScopeMove} (opens : opening.Opens) :
    (s.move opening).1.exit = s := by
  cases opening with
  | enter ids =>
      rw [move_of_known s opens]
      rfl
  | span trace => rfl
  | exit raised => exact opens.elim

/-- Moves that leave every scope that they open change nothing. -/
theorem run_of_balanced {moves : List ScopeMove} (balanced : Balanced moves) (s : Scopes) :
    s.run moves = s := by
  induction balanced generalizing s with
  | nil => rfl
  | refused unknown _ ih =>
      show (s.move _).1.run _ = s
      rw [move_of_unknown s unknown, ih]
  | @block opening body rest raised opens _ _ inside after =>
      show (s.move opening).1.run (body ++ .exit raised :: rest) = s
      rw [run_append, inside]
      show (s.move opening).1.exit.run rest = s
      rw [exit_of_opens s opens, after]

/-- An exit brings back what held before the innermost open scope was opened. -/
theorem exit_of_openedAfter {earlier moves : List ScopeMove} (opened : OpenedAfter earlier moves)
    (s : Scopes) : (s.run moves).exit = s.run earlier := by
  obtain ⟨opening, body, rfl, opens, inside⟩ := opened
  rw [run_append]
  show (((s.run earlier).move opening).1.run body).exit = s.run earlier
  rw [run_of_balanced inside, exit_of_opens _ opens]

/-! ## What holds inside -/

/-- The ids that hold now, and those to come back to, are those of the open scopes one within the
other.  No scope gives an id twice. -/
inductive Tracks : Correlation → List (Correlation × Nat) → List GivenIds → Prop where
  | nil : Tracks .none [] []
  | cons {now : Correlation} {trace : Nat} {outer : List (Correlation × Nat)}
      {opened : List GivenIds} {ids : GivenIds} (once : (Assoc.keys ids).Nodup)
      (within : Tracks now outer opened) :
      Tracks (now.inside ids) ((now, trace) :: outer) (ids :: opened)

theorem Tracks.now_eq {now : Correlation} {outer : List (Correlation × Nat)}
    {opened : List GivenIds} (tracks : Tracks now outer opened) (field : CorrelationField) :
    now field = Correlation.innermost? opened field := by
  induction tracks with
  | nil => rfl
  | cons once _ ih =>
      unfold Correlation.inside
      rw [Correlation.given_eq_setBy once, ih]
      unfold Correlation.innermost?
      rw [List.findSome?_cons]
      cases Correlation.setBy _ field <;> rfl

/-- Each move keeps track of the open scopes. -/
theorem Tracks.move {s : Scopes} {opened opened' : List GivenIds} {move : ScopeMove}
    (tracks : Tracks s.now s.outer opened)
    (once : ∀ ids, move = .enter ids → (Assoc.keys ids).Nodup)
    (after : openAfter? opened move = some opened') :
    Tracks (s.move move).1.now (s.move move).1.outer opened' := by
  cases move with
  | enter ids =>
      cases known : Correlation.isKnown ids with
      | true =>
          rw [openAfter?, known] at after
          obtain rfl := Option.some.inj after
          rw [move_of_known s known]
          exact .cons (once ids rfl) tracks
      | false =>
          rw [openAfter?, known] at after
          obtain rfl := Option.some.inj after
          rw [move_of_unknown s known]
          exact tracks
  | span trace =>
      obtain rfl := Option.some.inj after
      have once : (Assoc.keys ([] : GivenIds)).Nodup := .nil
      exact .cons once tracks
  | exit raised =>
      obtain ⟨now, trace, outer⟩ := s
      cases tracks with
      | nil => cases after
      | cons _ within =>
          obtain rfl := Option.some.inj after
          exact within

theorem tracks_run {moves : List ScopeMove} {opened : List GivenIds}
    (nested : openScopes? moves = some opened)
    (once : ∀ ids, .enter ids ∈ moves → (Assoc.keys ids).Nodup) :
    Tracks (run {} moves).now (run {} moves).outer opened := by
  induction moves using List.reverseRecOn generalizing opened with
  | nil =>
      obtain rfl := Option.some.inj nested
      exact .nil
  | append_singleton moves last ih =>
      rw [openScopes?_concat] at nested
      obtain ⟨before, there, after⟩ := Option.bind_eq_some_iff.mp nested
      have tracks := ih there fun ids inside => once ids (List.mem_append_left _ inside)
      rw [run_append]
      exact tracks.move (fun ids same => once ids (by simp [same])) after

/-- **Scopes nest.** At every point of a sequence of moves in which each exit meets an open scope,
an id is the one that the innermost open scope gives, of those that give one.  An exit, by whatever
exception, brings back exactly the scopes of before the entry that it matches, and the exception
goes on.  An entry that is refused changes nothing. -/
theorem scopes_nest {before after : List ScopeMove}
    (nested : (openScopes? (before ++ after)).isSome = true)
    (once : ∀ ids, .enter ids ∈ before ++ after → (Assoc.keys ids).Nodup) :
    ∃ opened, openScopes? before = some opened ∧
      (∀ field, (run {} before).now field = Correlation.innermost? opened field) ∧
      (∀ raised rest, after = .exit raised :: rest →
        (∃ earlier, OpenedAfter earlier before) ∧
          ∀ earlier, OpenedAfter earlier before →
            (run {} before).move (.exit raised) = (run {} earlier, raised)) ∧
      ∀ ids, Correlation.isKnown ids = false →
        (run {} before).move (.enter ids) = (run {} before, some (.badType
          ("unknown correlation field(s): " ++
            ", ".intercalate (Correlation.unknownNames ids)))) := by
  obtain ⟨final, nested⟩ := Option.isSome_iff_exists.mp nested
  rw [openScopes?_append] at nested
  obtain ⟨opened, there, goesOn⟩ := Option.bind_eq_some_iff.mp nested
  have tracks := tracks_run there fun ids inside => once ids (List.mem_append_left _ inside)
  refine ⟨opened, there, tracks.now_eq, ?_, fun ids unknown => move_of_unknown _ unknown⟩
  rintro raised rest rfl
  refine ⟨?_, fun earlier before => congrArg (·, raised) (exit_of_openedAfter before {})⟩
  cases opened with
  | nil => cases goesOn
  | cons ids outer =>
      obtain ⟨earlier, before, -⟩ := exists_openedAfter there
      exact ⟨earlier, before⟩

/-- The scope of a chain, that of a step in it, and one in that which is refused. -/
def entered : List ScopeMove :=
  [.enter [("chain_id", some (.text "c")), ("step_index", some (.number 1))],
    .enter [("step_index", some (.number 2)), ("chain_id", none)],
    .enter [("step_index", some (.number 3)), ("color", some (.text "red"))]]

/-- The scopes that are open are left by an exception. -/
def leaving : List ScopeMove := List.replicate 2 (.exit (some (.badValue "no")))

theorem scopes_nest_entered :
    (run {} entered).now .chain = some (.text "c") ∧ (run {} entered).now .step = some (.number 2) ∧
      (run {} entered).move (.exit (some (.badValue "no"))) =
        (run {} (entered.take 1), some (.badValue "no")) := by
  have once : ∀ ids, .enter ids ∈ entered ++ leaving → (Assoc.keys ids).Nodup := by
    intro ids inside
    simp only [entered, leaving, List.cons_append, List.nil_append, List.mem_cons,
      ScopeMove.enter.injEq, List.mem_replicate, reduceCtorEq, and_false, or_false] at inside
    rcases inside with rfl | rfl | rfl <;> decide
  obtain ⟨opened, there, ids, exits, -⟩ := scopes_nest (by decide) once
  obtain rfl := Option.some.inj there
  have matched : OpenedAfter (entered.take 1) entered :=
    ⟨_, _, rfl, (by decide : Correlation.isKnown _ = true), .refused (by decide) .nil⟩
  exact ⟨ids .chain, ids .step, (exits _ _ rfl).2 _ matched⟩

end Scopes

end TaintFlow
