import Mathlib
import TaintFlow.Yaml.Failure
import TaintFlow.Yaml.Token.Lexer

/-!
# How the reading of a YAML text can fail

A text that cannot be read is not well formed, or fails with a mishap of one of
a few kinds.  Each reader keeps to these kinds, and so does each step of the
lexer: a token that stands where the text could not be read any further says why
with one of them.  The main statement is `fine_tokens`.
-/

namespace TaintFlow.Yaml

open Std.Do

set_option mvcgen.warning false

namespace Refusal

/-- The kinds of mishaps with which the conversion of a scalar, or a document that nests too deep,
can fail. -/
def kinds : List String :=
  ["ValueError", "RecursionError", "IndexError", "KeyError", "AttributeError", "TypeError",
    "OverflowError"]

/-- A text is refused because it is not well formed, or with a mishap of a known kind. -/
def Known : Refusal → Prop
  | malformed => True
  | mishap m => m.kind ∈ kinds

theorem known_malformed : Known malformed := trivial

end Refusal

/-- A token says why the text could not be read with a refusal of a known kind, if it does. -/
def Token.Fine : Token → Prop
  | .broken why => why.Known
  | _ => True

namespace Reader

/-- A reader gives what has a property, or refuses the text with a refusal of a known kind. -/
abbrev Gives {α : Type} (P : α → Prop) (r : Reader α) : Prop :=
  ⦃⌜True⌝⦄ r ⦃post⟨fun a => ⌜P a⌝, fun why => ⌜why.Known⌝⟩⦄

/-- A reader refuses a text with a refusal of a known kind, if it refuses it. -/
abbrev Refuses {α : Type} (r : Reader α) : Prop := r.Gives fun _ => True

theorem refuses_throw {α : Type} {why : Refusal} (known : why.Known) :
    Refuses (throw why : Reader α) := by
  intro _ _
  exact known

theorem refuses_get : Refuses (get : Reader Cursor) := by
  mvcgen

@[spec]
theorem refuses_malformed {α : Type} : Refuses (malformed : Reader α) :=
  refuses_throw Refusal.known_malformed

@[spec]
theorem refuses_peek : Refuses peek := by
  mvcgen [peek]

@[spec]
theorem refuses_skip (n : Nat) : Refuses (skip n) := by
  mvcgen [skip]

@[spec]
theorem refuses_takeWhile (p : Char → Bool) : Refuses (takeWhile p) := by
  mvcgen [takeWhile]

@[spec]
theorem refuses_discard {α : Type} {r : Reader α} (fine : Refuses r) : Refuses (discard r) := by
  have same : discard r = (fun _ => ()) <$> r := by
    rw [discard, map_const]
    rfl
  rw [same]
  mvcgen [fine]

@[spec]
theorem refuses_spaces : Refuses spaces := by
  mvcgen [spaces]

@[spec]
theorem refuses_expect (p : Char → Bool) : Refuses (expect p) := by
  mvcgen [expect]

@[spec]
theorem refuses_lineBreak : Refuses lineBreak := by
  mvcgen [lineBreak]

@[spec]
theorem refuses_comment : Refuses comment := by
  mvcgen [comment]

@[spec]
theorem refuses_restOfLine : Refuses restOfLine := by
  mvcgen [restOfLine]

/-! ## Anchors, tags and directives -/

@[spec]
theorem refuses_name : Refuses name := by
  mvcgen [name]

@[spec]
theorem refuses_anchorName : Refuses anchorName := by
  mvcgen [anchorName]

@[spec]
theorem refuses_escapedByte : Refuses escapedByte := by
  refine Triple.bind _ _ (refuses_skip 1) fun _ => Triple.bind _ _ refuses_get fun c => ?_
  dsimp only
  split
  · mvcgen
  · mvcgen

@[spec]
theorem refuses_escapedBytes (fuel : Nat) : Refuses (escapedBytes fuel) := by
  induction fuel with
  | zero => mvcgen [escapedBytes]
  | succ fuel ih => mvcgen [escapedBytes, ih]

@[spec]
theorem refuses_tagText (fuel : Nat) : Refuses (tagText fuel) := by
  induction fuel with
  | zero => mvcgen [tagText]
  | succ fuel ih => mvcgen [tagText, ih]

@[spec]
theorem refuses_tagSuffix : Refuses tagSuffix := by
  mvcgen [tagSuffix]

@[spec]
theorem refuses_tagHandle : Refuses tagHandle := by
  mvcgen [tagHandle]

@[spec]
theorem refuses_tag : Refuses tag := by
  mvcgen [tag]

@[spec]
theorem refuses_versionNumber : Refuses versionNumber := by
  mvcgen [versionNumber]

@[spec]
theorem refuses_directive : Refuses directive := by
  mvcgen [directive]

/-! ## Scalars -/

theorem known_noCharacter (code : Nat) : Refusal.Known (.mishap (noCharacter code)) := by
  unfold noCharacter
  split
  · exact (by decide : "ValueError" ∈ Refusal.kinds)
  · exact (by decide : "OverflowError" ∈ Refusal.kinds)

@[spec]
theorem refuses_chompingSign : Refuses chompingSign := by
  mvcgen [chompingSign]

@[spec]
theorem refuses_indentationDigit : Refuses indentationDigit := by
  mvcgen [indentationDigit]

@[spec]
theorem refuses_blockHeader : Refuses blockHeader := by
  mvcgen [blockHeader]

@[spec]
theorem refuses_indentTo (column : Nat) : Refuses (indentTo column) := by
  mvcgen [indentTo]

@[spec]
theorem refuses_leadingLines (fuel : Nat) : Refuses (leadingLines fuel) := by
  induction fuel with
  | zero => mvcgen [leadingLines]
  | succ fuel ih => mvcgen [leadingLines, ih]

@[spec]
theorem refuses_blockBreaks (column fuel : Nat) : Refuses (blockBreaks column fuel) := by
  induction fuel with
  | zero => mvcgen [blockBreaks]
  | succ fuel ih => mvcgen [blockBreaks, ih]

@[spec]
theorem refuses_blockLines (folded : Bool) (column : Nat) (breaks : List Char) (fuel : Nat) :
    Refuses (blockLines folded column breaks fuel) := by
  induction fuel generalizing breaks with
  | zero => mvcgen [blockLines]
  | succ fuel ih => mvcgen [blockLines, ih]

@[spec]
theorem refuses_blockScalar (folded : Bool) (indent : Int) :
    Refuses (blockScalar folded indent) := by
  mvcgen [blockScalar]

@[spec]
theorem refuses_codePoint (length : Nat) : Refuses (codePoint length) := by
  unfold codePoint
  refine Triple.bind _ _ refuses_get fun c => ?_
  dsimp only
  split
  · mvcgen
  · split
    · mvcgen
    · split
      · exact refuses_throw (known_noCharacter _)
      · mvcgen

@[spec]
theorem refuses_quotedBreaks (fuel : Nat) : Refuses (quotedBreaks fuel) := by
  induction fuel with
  | zero => mvcgen [quotedBreaks]
  | succ fuel ih => mvcgen [quotedBreaks, ih]

@[spec]
theorem refuses_escape : Refuses escape := by
  mvcgen [escape]

@[spec]
theorem refuses_quotedText (double : Bool) (fuel : Nat) : Refuses (quotedText double fuel) := by
  induction fuel with
  | zero => mvcgen [quotedText]
  | succ fuel ih => mvcgen [quotedText, ih]

@[spec]
theorem gives_quotedScalar (double : Bool) : (quotedScalar double).Gives Token.Fine := by
  mvcgen [quotedScalar]

@[spec]
theorem refuses_plainBreaks (fuel : Nat) : Refuses (plainBreaks fuel) := by
  induction fuel with
  | zero => mvcgen [plainBreaks]
  | succ fuel ih => mvcgen [plainBreaks, ih]

@[spec]
theorem refuses_plainBlanks : Refuses plainBlanks := by
  mvcgen [plainBlanks]

@[spec]
theorem refuses_plainWords (inFlow : Bool) (indent : Int) (blanks : List Char) (ended : Bool)
    (fuel : Nat) : Refuses (plainWords inFlow indent blanks ended fuel) := by
  induction fuel generalizing blanks ended with
  | zero => mvcgen [plainWords]
  | succ fuel ih => mvcgen [plainWords, ih]

@[spec]
theorem refuses_plainScalar (inFlow : Bool) (indent : Int) :
    Refuses (plainScalar inFlow indent) := by
  mvcgen [plainScalar]

theorem Gives.known_of_run {α : Type} {P : α → Prop} {r : Reader α} (gives : r.Gives P) {c : Cursor}
    {why : Refusal} (failed : r.run c = .error why) : why.Known := by
  have known := gives c trivial
  change (wp⟦r.run c⟧ (fun read => ⌜P read.1⌝, fun why => ⌜why.Known⌝, ())).down at known
  rw [failed] at known
  exact known

theorem Gives.of_run {α : Type} {P : α → Prop} {r : Reader α} (gives : r.Gives P) {c c' : Cursor}
    {a : α} (read : r.run c = .ok (a, c')) : P a := by
  have holds := gives c trivial
  change (wp⟦r.run c⟧ (fun read => ⌜P read.1⌝, fun why => ⌜why.Known⌝, ())).down at holds
  rw [read] at holds
  exact holds

end Reader

/-! ## Tokens -/

namespace Lexer

variable {s : Lexer} {t : Token}

/-- All tokens so far are fine. -/
def Fine (s : Lexer) : Prop := ∀ t ∈ s.tokens, t.Fine

@[simp]
theorem fine_push : (s.push t).Fine ↔ t.Fine ∧ s.Fine := List.forall_mem_cons

@[simp]
theorem fine_advance {n : Nat} : (s.advance n).Fine ↔ s.Fine := .rfl

@[simp]
theorem fine_keysAllowed {allowed : Bool} : (s.keysAllowed allowed).Fine ↔ s.Fine := .rfl

@[simp]
theorem fine_ite_advance {p : Prop} [Decidable p] {n : Nat} :
    (if p then s.advance n else s).Fine ↔ s.Fine := by
  split <;> rfl

theorem Fine.insertAt (fine : s.Fine) {position : Nat} {tokens : List Token}
    (others : ∀ t ∈ tokens, t.Fine) : (s.insertAt position tokens).Fine := by
  intro t inside
  obtain (newer | other) | older := (List.mem_append.trans (or_congr_left List.mem_append)).mp inside
  · exact fine t (List.mem_of_mem_take newer)
  · exact others t other
  · exact fine t (List.mem_of_mem_drop older)

theorem Fine.closeTo (fine : s.Fine) (column : Int) : (s.closeTo column).Fine := by
  unfold Lexer.closeTo
  split
  · exact fine
  · dsimp only
    split
    · intro t inside
      obtain closing | other := List.mem_append.mp inside
      · rw [List.eq_of_mem_replicate closing]
        trivial
      · exact fine t other
    · exact fine

theorem Fine.openAt (fine : s.Fine) {column : Nat} {s' : Lexer} (opened : s.openAt column = some s') :
    s'.Fine := by
  unfold Lexer.openAt at opened
  split at opened
  · cases opened
    exact fine
  · cases opened

theorem Fine.openHere (fine : s.Fine) (sign : t.Fine) : (s.openHere t).Fine := by
  unfold Lexer.openHere
  split
  · rename_i opened
    exact fine_push.mpr ⟨sign, fine.openAt opened⟩
  · exact fine

/-- A step keeps tokens fine, or refuses the text with a refusal of a known kind. -/
abbrev Goes (s : Lexer) (step : Except Refusal Lexer) : Prop :=
  ⦃⌜s.Fine⌝⦄ step ⦃post⟨fun s => ⌜s.Fine⌝, fun why => ⌜why.Known⌝⟩⦄

@[spec]
theorem goes_ok (s : Lexer) : Goes s (.ok s) := id

@[spec]
theorem goes_error (s : Lexer) : Goes s (.error .malformed) := fun _ => Refusal.known_malformed

/-- Reading at the cursor adds no token; what is read is what the reader gives. -/
theorem goes_reading {α : Type} {P : α → Prop} {r : Reader α} (gives : r.Gives P) (s : Lexer) :
    ⦃⌜s.Fine⌝⦄ s.reading r
      ⦃post⟨fun read => ⌜P read.1 ∧ read.2.Fine⌝, fun why => ⌜why.Known⌝⟩⦄ := by
  intro fine
  unfold reading
  cases ran : r.run s.cursor with
  | error why => exact gives.known_of_run ran
  | ok read => exact ⟨gives.of_run ran, fine⟩

@[spec]
theorem goes_reading_any {α : Type} {r : Reader α} (refuses : r.Refuses) (s : Lexer) :
    ⦃⌜s.Fine⌝⦄ s.reading r ⦃post⟨fun read => ⌜read.2.Fine⌝, fun why => ⌜why.Known⌝⟩⦄ := by
  have reads := goes_reading refuses
  mvcgen [reads]
  exact id

@[spec]
theorem goes_dropStale (s : Lexer) : Goes s s.dropStale := by
  mvcgen [dropStale]

@[spec]
theorem goes_dropCandidate (s : Lexer) : Goes s s.dropCandidate := by
  mvcgen [dropCandidate]

@[spec]
theorem goes_addCandidate (s : Lexer) : Goes s s.addCandidate := by
  mvcgen [addCandidate]

@[spec]
theorem goes_startsEntry (s : Lexer) (sign : t.Fine) : Goes s (s.startsEntry t) := by
  mvcgen [startsEntry]
  rename_i fine
  exact fine.openHere sign

/-! ## Steps -/

@[spec]
theorem goes_atEnd (s : Lexer) : Goes s s.atEnd := by
  mvcgen [atEnd] <;> simp_all [Fine.closeTo, Token.Fine]

@[spec]
theorem goes_atDirective (s : Lexer) : Goes s s.atDirective := by
  mvcgen [atDirective] <;> simp_all [Fine.closeTo, Token.Fine]

@[spec]
theorem goes_atDocumentMark (s : Lexer) (sign : t.Fine) : Goes s (s.atDocumentMark t) := by
  mvcgen [atDocumentMark] <;> simp_all [Fine.closeTo]

@[spec]
theorem goes_atOpening (s : Lexer) (sign : t.Fine) : Goes s (s.atOpening t) := by
  mvcgen [atOpening]
  rename_i fine
  exact fine_push.mpr ⟨sign, fine⟩

@[spec]
theorem goes_atClosing (s : Lexer) (sign : t.Fine) : Goes s (s.atClosing t) := by
  mvcgen [atClosing]
  rename_i fine
  exact fine_push.mpr ⟨sign, fine⟩

@[spec]
theorem goes_atComma (s : Lexer) : Goes s s.atComma := by
  mvcgen [atComma]
  simp_all [Token.Fine]

@[spec]
theorem goes_atHyphen (s : Lexer) : Goes s s.atHyphen := by
  mvcgen [atHyphen]
  simp_all [Token.Fine]

@[spec]
theorem goes_atQuestion (s : Lexer) : Goes s s.atQuestion := by
  mvcgen [atQuestion]
  simp_all [Token.Fine]

/-- The tokens for a key in front of a node that turns out to be one. -/
theorem Fine.insertKey (fine : s.Fine) (k : Candidate) :
    Fine (match (if s.inFlow then none else s.openAt k.column) with
      | some s => s.insertAt k.position [.key, .blockMapping]
      | none => s.insertAt k.position [.key]) := by
  split
  · rename_i opened
    split at opened
    · cases opened
    · exact (fine.openAt opened).insertAt (by simp [Token.Fine])
  · exact fine.insertAt (by simp [Token.Fine])

@[spec]
theorem goes_atColon (s : Lexer) : Goes s s.atColon := by
  mvcgen [atColon]
  · rename_i k _ kept _ _ fine
    have keyed : Fine _ := Fine.insertKey (s := kept) fine k
    exact fine_push.mpr ⟨trivial, keyed⟩
  all_goals simp_all [Token.Fine]

/-- A node adds its token, which has to be fine. -/
@[spec]
theorem goes_atNode {reader : Reader Token} (s : Lexer)
    (gives : reader.Gives Token.Fine) : Goes s (s.atNode reader) := by
  have reads := goes_reading gives
  mvcgen [atNode, reads, -goes_reading_any]
  simp_all

@[spec]
theorem goes_atBlockScalar (folded : Bool) (s : Lexer) : Goes s (s.atBlockScalar folded) := by
  mvcgen [atBlockScalar]
  simp_all [Token.Fine]

@[spec]
theorem goes_atPlain (s : Lexer) : Goes s s.atPlain := by
  mvcgen [atPlain]
  simp_all [Token.Fine]

@[spec]
theorem goes_toNextToken (fuel : Nat) (s : Lexer) : Goes s (toNextToken fuel s) := by
  induction fuel generalizing s with
  | zero => mvcgen [toNextToken]
  | succ fuel ih =>
      mvcgen [toNextToken, ih]
      split
      · assumption
      · assumption

theorem goes_next (s : Lexer) : Goes s s.next := by
  mvcgen [next] <;> simp_all +zetaDelta [Fine.closeTo, Token.Fine]

theorem fine_run {fuel : Nat} (fine : s.Fine) : ∀ t ∈ run fuel s, t.Fine := by
  induction fuel generalizing s with
  | zero => exact fun t inside => fine t (List.mem_reverse.mp inside)
  | succ fuel ih =>
      have goes := goes_next s fine
      unfold run
      cases stepped : s.next with
      | error why =>
          rw [stepped] at goes
          have known : (Token.broken why).Fine := goes
          exact fun t inside => fine_push.mpr ⟨known, fine⟩ t (List.mem_reverse.mp inside)
      | ok s' =>
          rw [stepped] at goes
          have fine' : s'.Fine := goes
          dsimp only
          split
          · exact fun t inside => fine' t (List.mem_reverse.mp inside)
          · exact ih fine'

end Lexer

/-- The tokens of a text say why it could not be read with a refusal of a known kind. -/
theorem fine_tokens (text : List Char) : ∀ t ∈ tokens text, t.Fine := by
  unfold tokens
  split
  · exact Lexer.fine_run fun t inside => absurd inside List.not_mem_nil
  · intro t inside
    rw [List.mem_singleton.mp inside]
    exact Refusal.known_malformed

end TaintFlow.Yaml
