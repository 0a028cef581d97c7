import Mathlib.Data.List.Infix
import Mathlib.Data.List.Nodup
import Mathlib.Tactic.Common
import TaintFlow.Relay.Builtin

/-!
# Filling templates

A mapping is put into a template one key after the other, and each time in the whole
text as it stands by then.  What a reader expects is one pass over the template that
leaves alone what it has put in: `fill`.  The two agree as long as the placeholder of
a key stands only where the template itself has it when its turn comes, and no two
placeholders overlap: `interpolate_eq_fill`.  In one pass the order of the keys makes
no difference.
-/

namespace TaintFlow.Builtin

/-- A row to look for, and the row that goes in its place. -/
structure Slot (α : Type) where
  mark : List α
  text : List α

section Filling

variable {α : Type} {slots : List (Slot α)} {slot : Slot α} {row : List α}

/-- No slot looks for nothing. -/
def Proper (slots : List (Slot α)) : Prop := ∀ slot ∈ slots, slot.mark ≠ []

/-- Nowhere in a row do two slots overlap. -/
def Apart (slots : List (Slot α)) (row : List α) : Prop :=
  ∀ one ∈ slots, ∀ two ∈ slots, one ≠ two → ∀ i j, i ≤ j → one.mark <+: row.drop i →
    two.mark <+: row.drop j → i + one.mark.length ≤ j

theorem Apart.drop (apart : Apart slots row) (n : Nat) : Apart slots (row.drop n) := by
  intro one inOne two inTwo other i j before first second
  rw [List.drop_drop] at first second
  have := apart one inOne two inTwo other (n + i) (n + j) (by omega) first second
  omega

theorem Apart.of_subset {fewer : List (Slot α)} (apart : Apart slots row)
    (subset : ∀ slot ∈ fewer, slot ∈ slots) : Apart fewer row :=
  fun one inOne two inTwo => apart one (subset one inOne) two (subset two inTwo)

variable [DecidableEq α]

/-- Does a row begin with what a slot looks for? -/
def Slot.begins (row : List α) (slot : Slot α) : Bool := slot.mark.isPrefixOf row

/-- Fill slots in one pass after some members that are passed over. -/
def fillAfter (slots : List (Slot α)) : Nat → List α → List α
  | _, [] => []
  | skipped + 1, _ :: rest => fillAfter slots skipped rest
  | 0, c :: rest =>
    match slots.find? (Slot.begins (c :: rest)) with
    | some slot => slot.text ++ fillAfter slots (slot.mark.length - 1) rest
    | none => c :: fillAfter slots 0 rest

/-- Fill slots in one pass from left to right; what has been put in is not looked at again. -/
def fill (slots : List (Slot α)) (row : List α) : List α := fillAfter slots 0 row

@[simp] theorem fill_nil (slots : List (Slot α)) : fill slots [] = [] := rfl

theorem fillAfter_eq (slots : List (Slot α)) (skipped : Nat) (row : List α) :
    fillAfter slots skipped row = fill slots (row.drop skipped) := by
  induction skipped generalizing row with
  | zero => rfl
  | succ skipped ih =>
      cases row with
      | nil => rfl
      | cons c rest => exact ih rest

/-- Where a slot is found its text goes in, and the pass goes on behind it. -/
theorem fill_of_find? (found : slots.find? (Slot.begins row) = some slot) (proper : slot.mark ≠ []) :
    fill slots row = slot.text ++ fill slots (row.drop slot.mark.length) := by
  obtain ⟨c, mark, same⟩ := List.exists_cons_of_ne_nil proper
  cases row with
  | nil =>
      have begins := List.find?_some found
      unfold Slot.begins at begins
      rw [same] at begins
      cases begins
  | cons c rest =>
      have step : fill slots (c :: rest) =
          slot.text ++ fillAfter slots (slot.mark.length - 1) rest := by
        unfold fill
        rw [fillAfter, found]
      rw [step, fillAfter_eq, same]
      rfl

theorem fill_cons_of_none {c : α} {rest : List α}
    (none : slots.find? (Slot.begins (c :: rest)) = none) :
    fill slots (c :: rest) = c :: fill slots rest := by
  unfold fill
  rw [fillAfter, none]

theorem fill_nil_slots (row : List α) : fill ([] : List (Slot α)) row = row := by
  induction row with
  | nil => rfl
  | cons c row ih => exact congrArg (c :: ·) ih

theorem begins_iff : slot.begins row = true ↔ slot.mark <+: row := List.isPrefixOf_iff_prefix

/-- At each place at most one slot is found. -/
theorem Apart.unique (apart : Apart slots row) (proper : Proper slots) {one two : Slot α}
    (inOne : one ∈ slots) (inTwo : two ∈ slots) (first : one.begins row = true)
    (second : two.begins row = true) : one = two := by
  by_contra other
  have := apart one inOne two inTwo other 0 0 (Nat.le_refl 0) (begins_iff.mp first)
    (begins_iff.mp second)
  have := List.length_pos_iff.mpr (proper one inOne)
  omega

/-- Induction along a pass: it goes on behind a slot that is found, and else with the next member. -/
theorem pass_induction {motive : List α → Prop} (proper : Proper slots) (nil : motive [])
    (passed : ∀ c rest, slots.find? (Slot.begins (c :: rest)) = none → motive rest →
      motive (c :: rest))
    (found : ∀ row slot, slots.find? (Slot.begins row) = some slot →
      motive (row.drop slot.mark.length) → motive row)
    (row : List α) : motive row := by
  induction length : row.length using Nat.strong_induction_on generalizing row with
  | _ n ih =>
    subst length
    cases row with
    | nil => exact nil
    | cons c rest =>
        cases here : slots.find? (Slot.begins (c :: rest)) with
        | none => exact passed c rest here (ih rest.length (Nat.lt_succ_self _) rest rfl)
        | some slot =>
            have mark := List.length_pos_iff.mpr (proper slot (List.mem_of_find?_eq_some here))
            have shorter : ((c :: rest).drop slot.mark.length).length < (c :: rest).length := by
              simp only [List.length_drop, List.length_cons]
              omega
            exact found _ slot here (ih _ shorter _ rfl)

/-- The same slot is found in whatever order slots that do not overlap are looked for. -/
theorem find?_of_perm {others : List (Slot α)} (order : others.Perm slots) (proper : Proper slots)
    (apart : Apart slots row) :
    others.find? (Slot.begins row) = slots.find? (Slot.begins row) := by
  cases found : slots.find? (Slot.begins row) with
  | none =>
      refine List.find?_eq_none.mpr fun slot inside => ?_
      exact List.find?_eq_none.mp found slot (order.mem_iff.mp inside)
  | some slot =>
      have inside := List.mem_of_find?_eq_some found
      have begins := List.find?_some found
      cases other : others.find? (Slot.begins row) with
      | none => exact absurd begins (List.find?_eq_none.mp other slot (order.mem_iff.mpr inside))
      | some slot' =>
          exact congrArg some (apart.unique proper
            (order.mem_iff.mp (List.mem_of_find?_eq_some other)) inside
            (List.find?_some other) begins)

/-- In one pass the order of slots that do not overlap makes no difference. -/
theorem fill_of_perm {others : List (Slot α)} (order : others.Perm slots) (proper : Proper slots)
    (apart : Apart slots row) : fill others row = fill slots row := by
  induction row using pass_induction proper with
  | nil => rfl
  | passed c rest none ih =>
      have same := find?_of_perm order proper apart
      rw [fill_cons_of_none none, fill_cons_of_none (same.trans none)]
      exact congrArg (c :: ·) (ih (apart.drop 1))
  | found row slot found ih =>
      have same := find?_of_perm order proper apart
      have mark := proper slot (List.mem_of_find?_eq_some found)
      rw [fill_of_find? found mark, fill_of_find? (same.trans found) mark]
      exact congrArg (slot.text ++ ·) (ih (apart.drop _))

/-- Replacing one row wherever it stands is a pass with one slot. -/
theorem replaceAll_eq_fill {mark text row : List Char} (proper : mark ≠ []) {fuel : Nat}
    (enough : row.length < fuel) : replaceAll mark text fuel row = fill [⟨mark, text⟩] row := by
  induction fuel generalizing row with
  | zero => omega
  | succ fuel ih =>
      cases row with
      | nil => rfl
      | cons c rest =>
          rw [replaceAll]
          cases begins : mark.isPrefixOf (c :: rest) with
          | true =>
              have found : [(⟨mark, text⟩ : Slot Char)].find? (Slot.begins (c :: rest)) =
                  some ⟨mark, text⟩ := by
                rw [List.find?_singleton, Slot.begins, begins]
                rfl
              have := List.length_pos_iff.mpr proper
              rw [if_pos rfl, fill_of_find? found proper, ih]
              simp only [List.length_drop, List.length_cons] at enough ⊢
              omega
          | false =>
              have none : [(⟨mark, text⟩ : Slot Char)].find? (Slot.begins (c :: rest)) = none := by
                rw [List.find?_singleton, Slot.begins, begins]
                rfl
              rw [if_neg Bool.false_ne_true, fill_cons_of_none none,
                ih (Nat.lt_of_succ_lt_succ enough)]

end Filling

/-! ## Templates that are being filled -/

/-- A piece of a template that is being filled: a character of its own, or a text that has been put
in. -/
inductive Piece where
  | own (c : Char)
  | put (text : List Char)
  deriving DecidableEq

/-- The text of a piece. -/
def Piece.chars : Piece → List Char
  | own c => [c]
  | put text => text

/-- The text of several pieces. -/
def written (pieces : List Piece) : List Char := pieces.flatMap Piece.chars

/-- A slot that is looked for among the characters of the template's own. -/
def Slot.inPieces (slot : Slot Char) : Slot Piece := ⟨slot.mark.map .own, [.put slot.text]⟩

/-- A template with slots filled in one pass. -/
def filled (slots : List (Slot Char)) (template : List Char) : List Piece :=
  fill (slots.map Slot.inPieces) (template.map .own)

/-- A row of characters stands in a text only where the template itself has it. -/
def OnlyOwn (mark : List Char) (pieces : List Piece) : Prop :=
  ∀ i < (written pieces).length, mark <+: (written pieces).drop i →
    ∃ j < pieces.length, mark.map .own <+: pieces.drop j ∧ (written (pieces.take j)).length = i

instance (mark : List Char) (pieces : List Piece) : Decidable (OnlyOwn mark pieces) :=
  inferInstanceAs (Decidable (∀ i < (written pieces).length, _))

/-- When the turn of a slot comes, what it looks for stands only where the template has it. -/
def Verbatim (slots : List (Slot Char)) (template : List Char) : Prop :=
  ∀ i, ∀ h : i < slots.length, OnlyOwn slots[i].mark (filled (slots.take i) template)

instance (slots : List (Slot Char)) (template : List Char) : Decidable (Verbatim slots template) :=
  inferInstanceAs (Decidable (∀ i, ∀ _ : i < slots.length, _))

section Pieces

variable {slots done : List (Slot Char)} {slot : Slot Char} {template mark text : List Char}
  {pieces rest : List Piece}

theorem own_injective : Function.Injective Piece.own := fun _ _ same => Piece.own.inj same

theorem find?_inPieces (slots : List (Slot Char)) (template : List Char) :
    (slots.map Slot.inPieces).find? (Slot.begins (template.map .own)) =
      (slots.find? (Slot.begins template)).map Slot.inPieces := by
  have same : Slot.begins (template.map .own) ∘ Slot.inPieces = Slot.begins template := by
    funext slot
    rw [Bool.eq_iff_iff, Function.comp_apply, begins_iff, begins_iff]
    exact List.prefix_map_iff_of_injective own_injective
  rw [List.find?_map, same]

theorem filled_of_find? (found : slots.find? (Slot.begins template) = some slot)
    (proper : slot.mark ≠ []) :
    filled slots template = .put slot.text :: filled slots (template.drop slot.mark.length) := by
  have inPieces : (slots.map Slot.inPieces).find? (Slot.begins (template.map .own)) =
      some slot.inPieces := by rw [find?_inPieces, found, Option.map_some]
  have mark : slot.inPieces.mark ≠ [] := fun nil => proper (List.map_eq_nil_iff.mp nil)
  unfold filled
  rw [fill_of_find? inPieces mark, List.map_drop]
  unfold Slot.inPieces
  rw [List.length_map]
  rfl

theorem filled_cons_of_none {c : Char} {rest : List Char}
    (none : slots.find? (Slot.begins (c :: rest)) = none) :
    filled slots (c :: rest) = .own c :: filled slots rest := by
  have inPieces : (slots.map Slot.inPieces).find? (Slot.begins ((c :: rest).map .own)) = .none := by
    rw [find?_inPieces, none, Option.map_none]
  exact fill_cons_of_none inPieces

/-- The text of a filled template. -/
theorem written_filled (proper : Proper slots) (template : List Char) :
    written (filled slots template) = fill slots template := by
  induction template using pass_induction proper with
  | nil => rfl
  | passed c rest none ih =>
      rw [filled_cons_of_none none, fill_cons_of_none none]
      exact congrArg (c :: ·) ih
  | found row slot found ih =>
      have mark := proper slot (List.mem_of_find?_eq_some found)
      rw [filled_of_find? found mark, fill_of_find? found mark]
      exact congrArg (slot.text ++ ·) ih

/-- Characters of the template that stand in a row have stood in a row from the start. -/
theorem prefix_of_filled (proper : Proper done) (stands : mark.map .own <+: filled done template) :
    mark <+: template := by
  induction mark generalizing template with
  | nil => exact List.nil_prefix
  | cons m mark ih =>
      cases template with
      | nil => exact absurd (List.prefix_nil.mp stands) (List.cons_ne_nil _ _)
      | cons c rest =>
          cases found : done.find? (Slot.begins (c :: rest)) with
          | some slot =>
              rw [filled_of_find? found (proper slot (List.mem_of_find?_eq_some found))] at stands
              cases (List.cons_prefix_cons.mp stands).1
          | none =>
              rw [filled_cons_of_none found] at stands
              obtain ⟨same, stands⟩ := List.cons_prefix_cons.mp stands
              exact List.cons_prefix_cons.mpr ⟨Piece.own.inj same, ih stands⟩

/-- Where no slot is found the template keeps its characters. -/
theorem filled_of_none {n : Nat} (enough : n ≤ template.length)
    (none : ∀ i < n, done.find? (Slot.begins (template.drop i)) = none) :
    filled done template = (template.take n).map .own ++ filled done (template.drop n) := by
  induction n generalizing template with
  | zero => rfl
  | succ n ih =>
      cases template with
      | nil => cases enough
      | cons c rest =>
          rw [filled_cons_of_none (none 0 (Nat.zero_lt_succ n)), ih (Nat.le_of_succ_le_succ enough)
            fun i less => none (i + 1) (Nat.succ_lt_succ less)]
          rfl

/-- A text that has been put in is no character of the template. -/
theorem no_own_put (proper : mark ≠ []) : ¬ mark.map .own <+: .put text :: rest := by
  intro stands
  obtain ⟨m, more, rfl⟩ := List.exists_cons_of_ne_nil proper
  cases (List.cons_prefix_cons.mp stands).1

/-- Where a slot is to be filled next, none of those that have been filled begins inside it, so that
its characters are still in a row. -/
theorem filled_of_begins (apart : Apart (done ++ [slot]) template)
    (none : done.find? (Slot.begins template) = none) (begins : slot.begins template = true) :
    filled done template =
      slot.mark.map .own ++ filled done (template.drop slot.mark.length) := by
  have stands := begins_iff.mp begins
  conv_rhs => rw [List.prefix_iff_eq_take.mp stands, List.length_take_of_le stands.length_le]
  refine filled_of_none stands.length_le fun i less => ?_
  refine List.find?_eq_none.mpr fun one inside also => ?_
  have differ : slot ≠ one := by
    rintro rfl
    exact List.find?_eq_none.mp none slot inside begins
  have := apart slot (List.mem_append_right _ List.mem_cons_self) one
    (List.mem_append_left _ inside) differ 0 i (Nat.zero_le i) stands (begins_iff.mp also)
  omega

/-- Filling one more slot into a filled template is filling all of them in one pass. -/
theorem fill_filled (proper : Proper (done ++ [slot])) (apart : Apart (done ++ [slot]) template) :
    fill [slot.inPieces] (filled done template) = filled (done ++ [slot]) template := by
  have properDone : Proper done := fun one inside => proper one (List.mem_append_left _ inside)
  have mark : slot.mark ≠ [] := proper slot (List.mem_append_right _ List.mem_cons_self)
  induction template using pass_induction proper with
  | nil => rfl
  | passed c rest none ih =>
      obtain ⟨noneDone, noneHere⟩ := Option.or_eq_none_iff.mp (List.find?_append.symm.trans none)
      have passes : [slot.inPieces].find? (Slot.begins (.own c :: filled done rest)) = .none := by
        refine List.find?_eq_none.mpr fun same inside stands => ?_
        obtain rfl := List.mem_singleton.mp inside
        rw [← filled_cons_of_none noneDone] at stands
        have stood := prefix_of_filled properDone (begins_iff.mp stands)
        exact List.find?_eq_none.mp noneHere slot List.mem_cons_self (begins_iff.mpr stood)
      rw [filled_cons_of_none noneDone, fill_cons_of_none passes, filled_cons_of_none none]
      exact congrArg (.own c :: ·) (ih (apart.drop 1))
  | found row one all ih =>
      have oneMark := proper one (List.mem_of_find?_eq_some all)
      rw [filled_of_find? all oneMark, ← ih (apart.drop _)]
      rcases Option.or_eq_some_iff.mp (List.find?_append.symm.trans all) with
        found | ⟨noneDone, found⟩
      · have passes : [slot.inPieces].find? (Slot.begins (.put one.text ::
            filled done (row.drop one.mark.length))) = none := by
          refine List.find?_eq_none.mpr fun other inside begins => ?_
          obtain rfl := List.mem_singleton.mp inside
          exact no_own_put mark (begins_iff.mp begins)
        rw [filled_of_find? found oneMark, fill_cons_of_none passes]
      · obtain rfl := List.mem_singleton.mp (List.mem_of_find?_eq_some found)
        have kept := filled_of_begins apart noneDone (List.find?_some found)
        have foundHere : [one.inPieces].find? (Slot.begins (filled done row)) =
            some one.inPieces := by
          have : one.inPieces.begins (filled done row) = true := by
            rw [begins_iff, kept]
            exact List.prefix_append _ _
          rw [List.find?_singleton, this]
          rfl
        have properPieces : one.inPieces.mark ≠ [] := fun nil => mark (List.map_eq_nil_iff.mp nil)
        have dropped : (filled done row).drop one.inPieces.mark.length =
            filled done (row.drop one.mark.length) := by
          rw [kept]
          exact List.drop_left
        rw [fill_of_find? foundHere properPieces, dropped]
        rfl

theorem written_own (row : List Char) : written (row.map .own) = row := by
  induction row with
  | nil => rfl
  | cons c row ih => exact congrArg (c :: ·) ih

theorem written_append (one two : List Piece) : written (one ++ two) = written one ++ written two :=
  List.flatMap_append

/-- What the template has in a row also stands in a row in the text. -/
theorem prefix_written (stands : mark.map .own <+: pieces) : mark <+: written pieces := by
  obtain ⟨rest, rfl⟩ := stands
  rw [written_append, written_own]
  exact List.prefix_append _ _

theorem OnlyOwn.tail {piece : Piece} (only : OnlyOwn mark (piece :: rest)) (proper : mark ≠ []) :
    OnlyOwn mark rest := by
  intro i less stands
  have length : (written (piece :: rest)).length = piece.chars.length + (written rest).length :=
    List.length_append
  have dropped : (written (piece :: rest)).drop (piece.chars.length + i) = (written rest).drop i :=
    List.drop_length_add_append i
  obtain ⟨j, inside, own, place⟩ := only (piece.chars.length + i) (by omega) (dropped ▸ stands)
  cases j with
  | zero =>
      -- Only a text that is empty could stand before the place, and it is no character.
      obtain ⟨m, more, rfl⟩ := List.exists_cons_of_ne_nil proper
      obtain rfl := (List.cons_prefix_cons.mp own).1
      have place : 0 = 1 + i := place
      omega
  | succ j =>
      have counted : (written (piece :: rest.take j)).length =
          piece.chars.length + (written (rest.take j)).length := List.length_append
      refine ⟨j, Nat.lt_of_succ_lt_succ inside, own, ?_⟩
      rw [List.take_succ_cons, counted] at place
      omega

theorem OnlyOwn.drop (only : OnlyOwn mark pieces) (proper : mark ≠ []) (n : Nat) :
    OnlyOwn mark (pieces.drop n) := by
  induction n generalizing pieces with
  | zero => exact only
  | succ n ih =>
      cases pieces with
      | nil => exact only
      | cons piece rest => exact ih (only.tail proper)

/-- Where a row stands at the beginning of the text, the template has it there. -/
theorem OnlyOwn.own_prefix {c : Char} (only : OnlyOwn mark (.own c :: rest))
    (stands : mark <+: written (.own c :: rest)) : mark.map .own <+: .own c :: rest := by
  obtain ⟨j, -, own, place⟩ := only 0 (Nat.succ_pos _) stands
  cases j with
  | zero => exact own
  | succ j => cases place

/-- A text that holds no row of its own is passed over. -/
theorem fill_append_of_none {slots : List (Slot Char)} {rest : List Char}
    (none : ∀ i < text.length, slots.find? (Slot.begins ((text ++ rest).drop i)) = none) :
    fill slots (text ++ rest) = text ++ fill slots rest := by
  induction text with
  | nil => rfl
  | cons c text ih =>
      have here : slots.find? (Slot.begins (c :: (text ++ rest))) = .none :=
        none 0 (Nat.succ_pos _)
      have below : ∀ i < text.length, slots.find? (Slot.begins ((text ++ rest).drop i)) = .none :=
        fun i less => none (i + 1) (Nat.succ_lt_succ less)
      rw [List.cons_append, fill_cons_of_none here, ih below]
      rfl

/-- In a text that has been put in no slot begins that stands only where the template has it. -/
theorem not_begins_in_put {i : Nat} (proper : slot.mark ≠ [])
    (only : OnlyOwn slot.mark (.put text :: rest)) (less : i < text.length) :
    [slot].find? (Slot.begins ((text ++ written rest).drop i)) = none := by
  refine List.find?_eq_none.mpr fun other inside begins => ?_
  obtain rfl := List.mem_singleton.mp inside
  have inText : i < (written (.put text :: rest)).length := by
    have : (written (.put text :: rest)).length = text.length + (written rest).length :=
      List.length_append
    omega
  obtain ⟨j, -, own, place⟩ := only i inText (begins_iff.mp begins)
  cases j with
  | zero => exact no_own_put proper own
  | succ j =>
      have : (written (.put text :: rest.take j)).length =
          text.length + (written (rest.take j)).length := List.length_append
      rw [List.take_succ_cons] at place
      omega

/-- Filling a slot into a text is filling it among the characters of the template, if it stands
nowhere else. -/
theorem fill_written (proper : slot.mark ≠ []) (only : OnlyOwn slot.mark pieces) :
    fill [slot] (written pieces) = written (fill [slot.inPieces] pieces) := by
  have properPieces : Proper [slot.inPieces] :=
    List.forall_mem_singleton.mpr fun nil => proper (List.map_eq_nil_iff.mp nil)
  induction pieces using pass_induction properPieces with
  | nil => rfl
  | passed piece rest none ih =>
      rw [fill_cons_of_none none]
      cases piece with
      | put text =>
          have nowhere := fun i less => not_begins_in_put (i := i) proper only less
          exact (fill_append_of_none nowhere).trans (congrArg (text ++ ·) (ih (only.tail proper)))
      | own c =>
          have nowhere : [slot].find? (Slot.begins (c :: written rest)) = .none := by
            refine List.find?_eq_none.mpr fun other inside stands => ?_
            obtain rfl := List.mem_singleton.mp inside
            have own := only.own_prefix (begins_iff.mp stands)
            exact List.find?_eq_none.mp none _ List.mem_cons_self (begins_iff.mpr own)
          exact (fill_cons_of_none nowhere).trans (congrArg (c :: ·) (ih (only.tail proper)))
  | found pieces one found ih =>
      obtain rfl := List.mem_singleton.mp (List.mem_of_find?_eq_some found)
      have own := begins_iff.mp (List.find?_some found)
      have foundText : [slot].find? (Slot.begins (written pieces)) = some slot := by
        rw [List.find?_singleton, begins_iff.mpr (prefix_written own)]
        rfl
      have dropped : (written pieces).drop slot.mark.length =
          written (pieces.drop slot.inPieces.mark.length) := by
        obtain ⟨more, rfl⟩ := own
        have text : written (slot.inPieces.mark ++ more) = slot.mark ++ written more := by
          rw [written_append]
          exact congrArg (· ++ written more) (written_own slot.mark)
        rw [text, List.drop_left, List.drop_left]
      rw [fill_of_find? foundText proper,
        fill_of_find? found (properPieces _ List.mem_cons_self), dropped, ih (only.drop proper _)]
      rfl

/-- Slots filled one after the other, each in the whole text as it stands by then. -/
def fillEach (slots : List (Slot Char)) (text : List Char) : List Char :=
  slots.foldl (fun text slot => fill [slot] text) text

/-- Slots filled one after the other give what one pass gives, if none is looked for in what has
been put in. -/
theorem fillEach_eq_fill (proper : Proper slots) (apart : Apart slots template)
    (verbatim : Verbatim slots template) : fillEach slots template = fill slots template := by
  have onward : ∀ left done, done ++ left = slots →
      fillEach left (written (filled done template)) = written (filled slots template) := by
    intro left
    induction left with
    | nil =>
        rintro done rfl
        rw [List.append_nil]
        rfl
    | cons slot left ih =>
        rintro done rfl
        have inside : ∀ one ∈ done ++ [slot], one ∈ done ++ slot :: left := by
          simp only [List.mem_append, List.mem_cons, List.not_mem_nil, or_false]
          exact fun one => Or.imp_right .inl
        have only : OnlyOwn slot.mark (filled done template) := by
          have := verbatim done.length (by simp only [List.length_append, List.length_cons]; omega)
          rwa [List.getElem_append_right (Nat.le_refl _), List.take_left,
            List.getElem_of_eq rfl, show (slot :: left)[done.length - done.length] = slot by simp]
            at this
        have mark : slot.mark ≠ [] :=
          proper slot (List.mem_append_right _ List.mem_cons_self)
        calc fillEach left (fill [slot] (written (filled done template)))
            = fillEach left (written (fill [slot.inPieces] (filled done template))) := by
              rw [fill_written mark only]
          _ = fillEach left (written (filled (done ++ [slot]) template)) := by
              rw [fill_filled (fun one isIn => proper one (inside one isIn))
                (apart.of_subset inside)]
          _ = written (filled (done ++ slot :: left) template) :=
              ih (done ++ [slot]) (List.append_cons _ _ _).symm
  have begun := onward slots [] rfl
  have start : written (filled [] template) = template := by
    rw [written_filled (fun _ inside => absurd inside List.not_mem_nil)]
    exact fill_nil_slots template
  rwa [start, written_filled proper] at begun

end Pieces

/-! ## Mappings in templates -/

/-- What a mapping puts into a template: each value in the place of its key between braces. -/
def slots (entries : Payload.Entries) : List (Slot Char) :=
  entries.map fun entry => ⟨placeholder entry.1.plain, entry.2.plain.toList⟩

theorem slots_proper (entries : Payload.Entries) : Proper (slots entries) := by
  intro slot inside
  obtain ⟨entry, -, rfl⟩ := List.mem_map.mp inside
  exact List.cons_ne_nil _ _

theorem isWritable_of_perm {entries order : Payload.Entries} (perm : order.Perm entries) :
    (Payload.map order).isWritable = (Payload.map entries).isWritable := by
  have all : ∀ entries : Payload.Entries, (Payload.map entries).isWritable =
      entries.all fun entry => entry.1.isWritable && entry.2.isWritable := by
    intro entries
    induction entries with
    | nil => rfl
    | cons entry rest ih => rw [List.all_cons, ← ih]; rfl
  rw [all, all, perm.all_eq]

/-- What the substitution of one key is. -/
theorem substitute_text (template : String) (key value : Payload) :
    substitute (.text template) key value =
      if key.isWritable && value.isWritable then
        .ok (.text (String.ofList
          (fill [⟨placeholder key.plain, value.plain.toList⟩] template.toList)))
      else .error Number.unwritable := by
  unfold substitute writtenText
  cases key.isWritable with
  | false => rfl
  | true =>
      cases value.isWritable with
      | false => rfl
      | true =>
          have proper : placeholder key.plain ≠ [] := List.cons_ne_nil _ _
          have filled : replaceAll (placeholder key.plain) value.plain.toList (template.length + 1)
              template.toList = fill [⟨placeholder key.plain, value.plain.toList⟩] template.toList :=
            replaceAll_eq_fill proper (Nat.lt_succ_self template.length)
          exact congrArg (fun row => Except.ok (Payload.text (String.ofList row))) filled

/-- What the substitution of all keys of a mapping is. -/
theorem substituteAll_text (template : String) (entries : Payload.Entries) :
    substituteAll (.text template) entries =
      if (Payload.map entries).isWritable then
        .ok (.text (String.ofList (fillEach (slots entries) template.toList)))
      else .error Number.unwritable := by
  induction entries generalizing template with
  | nil => exact congrArg (fun text => Except.ok (Payload.text text)) String.ofList_toList.symm
  | cons entry rest ih =>
      obtain ⟨key, value⟩ := entry
      have both : (Payload.map ((key, value) :: rest)).isWritable =
          (key.isWritable && value.isWritable && (Payload.map rest).isWritable) := by
        simp only [Payload.isWritable, Payload.entriesAreWritable]
      rw [substituteAll, substitute_text, both]
      cases key.isWritable && value.isWritable with
      | false => rfl
      | true =>
          have next := ih (String.ofList
            (fill [⟨placeholder key.plain, value.plain.toList⟩] template.toList))
          rw [String.toList_ofList] at next
          exact next

theorem takeWhile_of_prefix {α : Type} [DecidableEq α] {name row : List α} {c : α} (absent : c ∉ name)
    (stands : name ++ [c] <+: row) : row.takeWhile (· ≠ c) = name := by
  obtain ⟨rest, rfl⟩ := stands
  have other : ∀ a ∈ name, decide (a ≠ c) = true := by
    intro a inside
    exact decide_eq_true fun same => absent (same ▸ inside)
  rw [List.append_assoc, List.takeWhile_append_of_pos other, List.singleton_append,
    List.takeWhile_cons_of_neg (by simp), List.append_nil]

/-- The placeholders of distinct keys without braces never overlap. -/
theorem apart_of_braceless {entries : Payload.Entries} (row : List Char)
    (braceless : ∀ entry ∈ entries, '\x7b' ∉ entry.1.plain.toList ∧ '\x7d' ∉ entry.1.plain.toList)
    (distinct : (entries.map fun entry => entry.1.plain).Nodup) : Apart (slots entries) row := by
  intro one inOne two inTwo other i j before first second
  obtain ⟨entry, inEntries, rfl⟩ := List.mem_map.mp inOne
  obtain ⟨entry', inEntries', rfl⟩ := List.mem_map.mp inTwo
  dsimp only [placeholder] at first second ⊢
  by_contra short
  rw [List.length_cons, List.length_append, List.length_singleton] at short
  rcases Nat.eq_or_lt_of_le before with rfl | later
  · -- At one place stands one name only.
    have names : entry.1.plain = entry'.1.plain := by
      have tails : ∀ {name : List Char}, '\x7b' :: (name ++ ['\x7d']) <+: row.drop i →
          name ++ ['\x7d'] <+: (row.drop i).tail := by
        rintro name ⟨rest, same⟩
        exact ⟨rest, congrArg List.tail same⟩
      have one := takeWhile_of_prefix (braceless entry inEntries).2 (tails first)
      have two := takeWhile_of_prefix (braceless entry' inEntries').2 (tails second)
      exact String.toList_inj.mp (one.symm.trans two)
    have same : entry = entry' := List.inj_on_of_nodup_map distinct inEntries inEntries' names
    exact other (same ▸ rfl)
  · -- Inside a placeholder no other one begins.
    obtain ⟨k, rfl⟩ := Nat.exists_eq_add_of_lt later
    have opening : row[i + k + 1]? = some '\x7b' := by
      obtain ⟨rest, same⟩ := second
      rw [← List.head?_drop, ← same]
      rfl
    have within : row[i + k + 1]? = (entry.1.plain.toList ++ ['\x7d'])[k]? := by
      obtain ⟨rest, same⟩ := first
      rw [Nat.add_assoc, ← List.getElem?_drop, ← same, List.cons_append, List.getElem?_cons_succ,
        List.getElem?_append_left]
      rw [List.length_append, List.length_singleton]
      omega
    have inside := List.mem_of_getElem? (within.symm.trans opening)
    rcases List.mem_append.mp inside with inName | close
    · exact (braceless entry inEntries).1 inName
    · cases List.mem_singleton.mp close

/-- Filling a template from a mapping key by key is one pass over the template, and the order of the
keys makes no difference, if no placeholders overlap in it and none comes up in what is put in before
its turn. -/
theorem interpolate_eq_fill {entries : Payload.Entries} {template : String}
    (apart : Apart (slots entries) template.toList)
    (verbatim : Verbatim (slots entries) template.toList) (name : Payload) :
    interpolate (.map entries) (.text template) name =
        (if (Payload.map entries).isWritable then
          .ok (.text (String.ofList (fill (slots entries) template.toList)))
        else .error Number.unwritable) ∧
      ∀ order : Payload.Entries, order.Perm entries →
        Verbatim (slots order) template.toList →
        interpolate (.map order) (.text template) name =
          interpolate (.map entries) (.text template) name := by
  have proper := slots_proper entries
  have once : ∀ order : Payload.Entries, order.Perm entries →
      Verbatim (slots order) template.toList →
      interpolate (.map order) (.text template) name =
        if (Payload.map entries).isWritable then
          .ok (.text (String.ofList (fill (slots entries) template.toList)))
        else .error Number.unwritable := by
    intro order perm verbatim
    have permuted : (slots order).Perm (slots entries) := perm.map _
    have apart' := apart.of_subset fun slot => permuted.mem_iff.mp
    calc interpolate (.map order) (.text template) name
        = if (Payload.map order).isWritable then
            .ok (.text (String.ofList (fillEach (slots order) template.toList)))
          else .error Number.unwritable := substituteAll_text template order
      _ = if (Payload.map entries).isWritable then
            .ok (.text (String.ofList (fill (slots entries) template.toList)))
          else .error Number.unwritable := by
        rw [isWritable_of_perm perm, fillEach_eq_fill (slots_proper order) apart' verbatim,
          fill_of_perm permuted proper apart]
  exact ⟨once entries (List.Perm.refl entries) verbatim,
    fun order perm verbatim' =>
      (once order perm verbatim').trans (once entries (List.Perm.refl entries) verbatim).symm⟩

/-- A letter's two fields. -/
def letter : Payload.Entries :=
  [(.text "to", .text "\x7byou\x7d"), (.text "subject", .text "Hi\nBcc: all")]

/-- A letter's head. -/
def letterHead : String := "To: \x7bto\x7d\n\x7bsubject\x7d"

theorem letter_apart : Apart (slots letter) letterHead.toList :=
  apart_of_braceless _ (by decide) (by decide)

theorem interpolate_letter :
    Apart (slots letter) letterHead.toList ∧ Verbatim (slots letter) letterHead.toList ∧
      interpolate (.map letter) (.text letterHead) (.text "value") =
        .ok (.text "To: \x7byou\x7d\nHi\nBcc: all") ∧
      interpolate (.map letter.reverse) (.text letterHead) (.text "value") =
        interpolate (.map letter) (.text letterHead) (.text "value") := by
  have verbatim : Verbatim (slots letter) letterHead.toList := by decide +kernel
  have verbatim' : Verbatim (slots letter.reverse) letterHead.toList := by decide +kernel
  obtain ⟨once, ordered⟩ := interpolate_eq_fill letter_apart verbatim (.text "value")
  refine ⟨letter_apart, verbatim, ?_, ordered letter.reverse (List.reverse_perm letter) verbatim'⟩
  rw [once]
  decide +kernel

/-- Two entries, the value of one of which is a placeholder of the other's. -/
def crossed : Payload.Entries := [(.text "a", .text "\x7bb\x7d"), (.text "b", .text "x")]

/-- Text that has just been put in is gone through again, and so the order of the keys makes a
difference. -/
theorem interpolate_not_verbatim :
    fill (slots crossed) "\x7ba\x7d".toList = "\x7bb\x7d".toList ∧
      interpolate (.map crossed) (.text "\x7ba\x7d") (.text "value") = .ok (.text "x") ∧
      interpolate (.map crossed.reverse) (.text "\x7ba\x7d") (.text "value") =
        .ok (.text "\x7bb\x7d") := by
  decide +kernel

end TaintFlow.Builtin
