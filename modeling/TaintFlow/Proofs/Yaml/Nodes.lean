import TaintFlow.Proofs.Yaml.Reading
import TaintFlow.Proofs.Data.Except
import TaintFlow.Yaml.Node

/-!
# How the reading of nodes can fail

Nodes are read from tokens that say why a text could not be read with refusals
of known kinds.  What is read of them leaves tokens of the same sort, and what
is refused is refused with one of these refusals, with one of their own form or
with that of a document that nests too deep.  The main statement is
`known_of_ofText?`.
-/

namespace TaintFlow.Yaml

open Std.Do

set_option mvcgen.warning false

namespace Node

/-! ## Nodes -/

/-- All tokens that are left are fine. -/
def Progress.Fine (p : Progress) : Prop := ∀ t ∈ p.tokens, t.Fine

/-- A reader of nodes keeps what is left of the tokens fine, or refuses the text with a refusal of
a known kind. -/
abbrev Keeps {α : Type} (r : Build α) : Prop :=
  ⦃fun p => ⌜p.Fine⌝⦄ r ⦃post⟨fun _ p => ⌜p.Fine⌝, fun why => ⌜why.Known⌝⟩⦄

theorem keeps_throw {α : Type} {why : Refusal} (known : why.Known) :
    Keeps (throw why : Build α) := by
  intro _ _
  exact known

theorem Progress.Fine.drop {p : Progress} (fine : p.Fine) (n : Nat) :
    Progress.Fine { p with tokens := p.tokens.drop n } :=
  fun t inside => fine t (List.mem_of_mem_drop inside)

/-- The next token is fine. -/
theorem gives_peek :
    ⦃fun p => ⌜p.Fine⌝⦄ peek
      ⦃post⟨fun t p => ⌜t.Fine ∧ p.Fine⌝, fun why => ⌜why.Known⌝⟩⦄ := by
  mvcgen [peek]
  rename_i p fine
  refine ⟨?_, fine⟩
  cases left : p.tokens with
  | nil => trivial
  | cons t rest => exact fine t (left ▸ List.mem_cons_self)

theorem Keeps.known_of_run {α : Type} {r : Build α} (keeps : Keeps r) {p : Progress} (fine : p.Fine)
    {why : Refusal} (failed : r.run p = .error why) : why.Known := by
  have known := keeps p fine
  change (wp⟦r.run p⟧ (fun read => ⌜read.2.Fine⌝, fun why => ⌜why.Known⌝, ())).down at known
  rw [failed] at known
  exact known

@[spec]
theorem keeps_peek : Keeps peek := by
  mvcgen [peek]

@[spec]
theorem keeps_pass : Keeps pass := by
  mvcgen [pass]
  rename_i fine _
  exact Progress.Fine.drop fine 1

@[spec]
theorem keeps_isNext (tokens : List Token) : Keeps (isNext tokens) := by
  mvcgen [isNext]

@[spec]
theorem keeps_misplaced {α : Type} : Keeps (misplaced : Build α) := by
  mvcgen [misplaced, gives_peek, keeps_throw, -keeps_peek, -Spec.throw_MonadExcept]
  · rename_i both
    exact both.2
  · exact fun _ known _ => known
  · rename_i both
    exact both.2
  · exact fun _ _ _ => Refusal.known_malformed

@[spec]
theorem keeps_require (t : Token) : Keeps (require t) := by
  mvcgen [require]

@[spec]
theorem keeps_takeAnchor : Keeps takeAnchor := by
  mvcgen [takeAnchor]

@[spec]
theorem keeps_takeTag : Keeps takeTag := by
  mvcgen [takeTag]

@[spec]
theorem keeps_takeProperties : Keeps takeProperties := by
  mvcgen [takeProperties]

@[spec]
theorem keeps_fullName (handles : Assoc String String) (name : Option String × String) :
    Keeps (fullName handles name) := by
  unfold fullName
  split
  · mvcgen
  · split
    · mvcgen
    · exact keeps_throw Refusal.known_malformed

@[spec]
theorem keeps_bindAnchor (anchor : Option String) (node : Node) : Keeps (bindAnchor anchor node) := by
  mvcgen [bindAnchor]

@[spec]
theorem keeps_nested {α : Type} {reader : Build α} (keeps : Keeps reader) : Keeps (nested reader) := by
  mvcgen [nested, keeps, keeps_throw, -Spec.throw_MonadExcept]
  exact (by decide : "RecursionError" ∈ Refusal.kinds)

@[spec]
theorem keeps_count : Keeps count := by
  mvcgen [count]

@[spec]
theorem keeps_finish (name : String) (node : Node) : Keeps (finish name node) := by
  mvcgen [finish]

@[spec]
theorem keeps_collection (anchor : Option String) (start : Node) {reader : Build Node}
    (keeps : Keeps reader) : Keeps (collection anchor start reader) := by
  mvcgen [collection, keeps]

@[spec]
theorem keeps_requireNew (anchor : Option String) : Keeps (requireNew anchor) := by
  mvcgen [requireNew, keeps_throw, -Spec.throw_MonadExcept]

@[spec]
theorem keeps_readNothing (anchor name : Option String) : Keeps (readNothing anchor name) := by
  mvcgen [readNothing]

@[spec]
theorem keeps_mapM {α β : Type} {f : α → Build β} (keeps : ∀ a, Keeps (f a)) (given : Option α) :
    Keeps (given.mapM f) := by
  cases given with
  | none => mvcgen [Option.mapM]
  | some a => mvcgen [Option.mapM, keeps]

/-- The readers of the parts of a document, with some fuel. -/
structure ReadersKeep (fuel : Nat) : Prop where
  read (handles : Assoc String String) (place : Surroundings) : Keeps (read handles place fuel)
  readUnless (stops : List Token) (handles : Assoc String String) (place : Surroundings) :
    Keeps (readUnless stops handles place fuel)
  readBlockItems (handles : Assoc String String) : Keeps (readBlockItems handles fuel)
  readLooseEntries (handles : Assoc String String) : Keeps (readLooseEntries handles fuel)
  readBlockEntries (handles : Assoc String String) : Keeps (readBlockEntries handles fuel)
  readFlowValue (stop : Token) (handles : Assoc String String) :
    Keeps (readFlowValue stop handles fuel)
  readFlowItems (handles : Assoc String String) (isFirst : Bool) :
    Keeps (readFlowItems handles isFirst fuel)
  readFlowEntries (handles : Assoc String String) (isFirst : Bool) :
    Keeps (readFlowEntries handles isFirst fuel)

theorem readersKeep (fuel : Nat) : ReadersKeep fuel := by
  induction fuel with
  | zero =>
      have out {α : Type} : Keeps (throw .malformed : Build α) := keeps_throw Refusal.known_malformed
      exact ⟨fun _ _ => out, fun _ _ _ => out, fun _ => out, fun _ => out, fun _ => out,
        fun _ _ => out, fun _ _ => out, fun _ _ => out⟩
  | succ fuel ih =>
      obtain ⟨read', readUnless', readBlockItems', readLooseEntries', readBlockEntries',
        readFlowValue', readFlowItems', readFlowEntries'⟩ := ih
      constructor
      case read =>
        intro handles place
        mvcgen [Node.read, readLooseEntries', readFlowItems', readFlowEntries', readBlockItems',
          readBlockEntries', keeps_throw, -Spec.throw_MonadExcept]
      case readUnless =>
        intro stops handles place
        mvcgen [readUnless, read']
      case readBlockItems =>
        intro handles
        mvcgen [readBlockItems, readUnless', readBlockItems']
      case readLooseEntries =>
        intro handles
        mvcgen [readLooseEntries, readUnless', readLooseEntries']
      case readBlockEntries =>
        intro handles
        mvcgen [readBlockEntries, readUnless', readBlockEntries']
      case readFlowValue =>
        intro stop handles
        mvcgen [readFlowValue, readUnless']
      case readFlowItems =>
        intro handles isFirst
        mvcgen [readFlowItems, read', readUnless', readFlowValue', readFlowItems']
      case readFlowEntries =>
        intro handles isFirst
        mvcgen [readFlowEntries, read', readUnless', readFlowValue', readFlowEntries']

@[spec]
theorem keeps_read (handles : Assoc String String) (place : Surroundings) (fuel : Nat) :
    Keeps (read handles place fuel) := (readersKeep fuel).read handles place

@[spec]
theorem keeps_readDirectives (hasVersion : Bool) (handles : Assoc String String) (fuel : Nat) :
    Keeps (readDirectives hasVersion handles fuel) := by
  induction fuel generalizing hasVersion handles with
  | zero => exact keeps_throw Refusal.known_malformed
  | succ fuel ih =>
      mvcgen [readDirectives, ih, keeps_throw, -Spec.throw_MonadExcept]
      all_goals
        intros
        exact Refusal.known_malformed

@[spec]
theorem keeps_passEnds (fuel : Nat) : Keeps (passEnds fuel) := by
  induction fuel with
  | zero => mvcgen [passEnds]
  | succ fuel ih => mvcgen [passEnds, ih]

theorem keeps_readDocument (fuel : Nat) : Keeps (readDocument fuel) := by
  mvcgen [readDocument]

end Node

theorem known_of_ofText? {text : List Char} {why : Refusal}
    (failed : Document.ofText? text = .error why) : why.Known := by
  unfold Document.ofText? at failed
  obtain failed | ⟨read, _, failed⟩ := Except.bind_eq_error.mp failed
  · have fine : Node.Progress.Fine { tokens := tokens text } := fine_tokens text
    exact (Node.keeps_readDocument _).known_of_run fine failed
  · cases failed

end TaintFlow.Yaml
