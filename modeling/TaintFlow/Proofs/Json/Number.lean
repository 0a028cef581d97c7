import TaintFlow.Json.Reader
import TaintFlow.Json.Basic
import TaintFlow.Proofs.Number.Digits

/-!
# Numbers in written JSON

A number is written in characters that only numbers have, so a reader that takes
such characters takes the whole number and nothing behind it.
-/

namespace TaintFlow.Json

open Number

/-- A text that is not empty and has only characters of numbers. -/
def IsNumberRow (row : List Char) : Prop := row ≠ [] ∧ ∀ c ∈ row, isNumberChar c = true

/-! ## Whole numbers -/

theorem isNumberChar_of_isDigit {c : Char} (digit : isDigit c = true) : isNumberChar c = true := by
  unfold isNumberChar
  rw [digit]
  rfl

theorem isNumberChar_of_mem_toDigits {n : Nat} {c : Char} (inside : c ∈ Nat.toDigits 10 n) :
    isNumberChar c = true :=
  isNumberChar_of_isDigit (allDigits_toDigits n c inside)

theorem isNumberRow_toDigits (n : Nat) : IsNumberRow (Nat.toDigits 10 n) :=
  ⟨Nat.toDigits_ne_nil, fun _ inside => isNumberChar_of_mem_toDigits inside⟩

theorem IsNumberRow.minus {row : List Char} (number : IsNumberRow row) :
    IsNumberRow ('-' :: row) := by
  refine ⟨List.cons_ne_nil _ _, fun c inside => ?_⟩
  rcases List.mem_cons.mp inside with rfl | inRow
  · rfl
  · exact number.2 c inRow

/-- A whole number is written as its digits, after its sign. -/
theorem toList_toString_int (n : Int) :
    (toString n).toList = if decide (n < 0) then '-' :: Nat.toDigits 10 n.natAbs
      else Nat.toDigits 10 n.natAbs := by
  cases n with
  | ofNat n => exact Nat.toList_repr
  | negSucc n =>
      show ("-" ++ Nat.repr (n + 1)).toList = _
      rw [String.toList_append, Nat.toList_repr, if_pos (decide_eq_true (Int.negSucc_lt_zero n))]
      rfl

theorem isNumberRow_int (n : Int) : IsNumberRow (toString n).toList := by
  rw [toList_toString_int]
  split
  · exact (isNumberRow_toDigits n.natAbs).minus
  · exact isNumberRow_toDigits n.natAbs

/-! ## Doubles -/

theorem isNumberChar_of_mem_digitsOf {x : FiniteDouble} {c : Char}
    (inside : c ∈ (FloatForm.shortest.digitsOf x).digits) : isNumberChar c = true := by
  unfold FloatForm.digitsOf at inside
  dsimp only at inside
  split at inside
  · rw [List.mem_singleton.mp inside]
    rfl
  · unfold Digits.ofDecimal Digits.trimZeros at inside
    have inReverse := (List.dropWhile_sublist _).subset (List.mem_reverse.mp inside)
    exact isNumberChar_of_mem_toDigits (List.mem_reverse.mp inReverse)

/-- A slice of digits is filled up with zeros. -/
theorem isNumberChar_of_mem_slice {d : Digits} {start stop : Int} {c : Char}
    (digits : ∀ c ∈ d.digits, isNumberChar c = true) (inside : c ∈ d.slice start stop) :
    isNumberChar c = true := by
  unfold Digits.slice at inside
  dsimp only at inside
  rcases List.mem_append.mp inside with front | after
  · rcases List.mem_append.mp front with before | among
    · rw [(List.mem_replicate.mp before).2]
      rfl
    · exact digits c (List.mem_of_mem_take (List.mem_of_mem_drop among))
  · rw [(List.mem_replicate.mp after).2]
    rfl

/-- A slice that reaches its own end or begins left of the point is not empty. -/
theorem slice_ne_nil (d : Digits) (point : Int) : d.slice (min (point - 1) 0) point ≠ [] := by
  intro none
  have length := congrArg List.length none
  unfold Digits.slice at length
  simp only [List.length_append, List.length_replicate, List.length_drop, List.length_take,
    List.length_nil] at length
  omega

theorem isNumberChar_of_mem_exponentText {e : Int} {c : Char}
    (inside : c ∈ exponentText 'e' e) : isNumberChar c = true := by
  unfold exponentText at inside
  dsimp only at inside
  rcases List.mem_cons.mp inside with rfl | inside
  · rfl
  rcases List.mem_cons.mp inside with rfl | inside
  · split <;> rfl
  · split at inside
    · rcases List.mem_cons.mp inside with rfl | inside
      · rfl
      · exact isNumberChar_of_mem_toDigits inside
    · exact isNumberChar_of_mem_toDigits inside

/-- Digits, a point with digits after it or none, and an exponent or none. -/
theorem isNumberRow_pointed {whole places : List Char} {e : Int} (bare plain : Bool)
    (some_ : whole ≠ []) (before : ∀ c ∈ whole, isNumberChar c = true)
    (after : ∀ c ∈ places, isNumberChar c = true) :
    IsNumberRow (if plain then (if bare then whole else whole ++ '.' :: places) ++ exponentText 'e' e
      else if bare then whole else whole ++ '.' :: places) := by
  have pointed : IsNumberRow (if bare then whole else whole ++ '.' :: places) := by
    split
    · exact ⟨some_, before⟩
    · refine ⟨List.append_ne_nil_of_left_ne_nil some_ _, fun c inside => ?_⟩
      rcases List.mem_append.mp inside with inWhole | inside
      · exact before c inWhole
      rcases List.mem_cons.mp inside with rfl | inPlaces
      · rfl
      · exact after c inPlaces
  split
  · refine ⟨List.append_ne_nil_of_left_ne_nil pointed.1 _, fun c inside => ?_⟩
    rcases List.mem_append.mp inside with inRow | inExponent
    · exact pointed.2 c inRow
    · exact isNumberChar_of_mem_exponentText inExponent
  · exact pointed

theorem isNumberRow_magnitude (x : FiniteDouble) : IsNumberRow (floatStyle.magnitude x) := by
  have digits : ∀ c ∈ (FloatForm.shortest.digitsOf x).digits, isNumberChar c = true :=
    fun _ inside => isNumberChar_of_mem_digitsOf inside
  exact isNumberRow_pointed _ _ (slice_ne_nil _ _)
    (fun _ inside => isNumberChar_of_mem_slice digits inside)
    (fun _ inside => isNumberChar_of_mem_slice digits inside)

/-- A double that is finite is written as a number. -/
theorem isNumberRow_finite (x : FiniteDouble) : IsNumberRow (floatStyle.write (.finite x)) := by
  unfold FloatStyle.write
  split
  · exact (isNumberRow_magnitude x).minus
  · exact isNumberRow_magnitude x

/-! ## Reading them -/

/-- A written value ends where a separator or the end of the text stands. -/
def Delimits (rest : List Char) : Prop := ∀ c ∈ rest.head?, c = ',' ∨ c = ']' ∨ c = '\x7d'

/-- A number is taken whole, and nothing behind it. -/
theorem readNumber_row {row rest : List Char} (number : IsNumberRow row) (delimits : Delimits rest) :
    readNumber (row ++ rest) = (ofNumberText? row).map (·, rest) := by
  have stops : rest.takeWhile isNumberChar = [] ∧ rest.dropWhile isNumberChar = rest := by
    cases rest with
    | nil => exact ⟨rfl, rfl⟩
    | cons c rest =>
        have other : isNumberChar c = false := by
          rcases delimits c rfl with rfl | rfl | rfl
          · rfl
          · rfl
          · rfl
        rw [List.takeWhile_cons, List.dropWhile_cons, other]
        exact ⟨rfl, rfl⟩
  unfold readNumber
  rw [List.takeWhile_append_of_pos number.2, List.dropWhile_append_of_pos number.2, stops.1,
    stops.2, List.append_nil]

/-- A word that begins with another character is not at the front of a number. -/
theorem afterWord?_row {row rest word : List Char} {c : Char} (number : IsNumberRow row)
    (other : isNumberChar c = false) : afterWord? (c :: word) (row ++ rest) = none := by
  obtain ⟨some_, all⟩ := number
  cases row with
  | nil => exact absurd rfl some_
  | cons d row =>
      have apart : (c == d) = false := by
        rw [beq_eq_false_iff_ne]
        rintro rfl
        rw [all c List.mem_cons_self] at other
        cases other
      unfold afterWord?
      rw [List.cons_append, List.isPrefixOf_cons_cons, apart, Bool.false_and, if_neg Bool.false_ne_true]

/-- Nor is the word that begins with a sign. -/
theorem afterWord?_minus {row rest word : List Char} {c : Char} (number : IsNumberRow row)
    (delimits : Delimits rest) (other : isNumberChar c = false)
    (inside : ¬ (c = ',' ∨ c = ']' ∨ c = '\x7d')) :
    afterWord? ('-' :: c :: word) (row ++ rest) = none := by
  obtain ⟨some_, all⟩ := number
  have tail : ∀ tail, (c :: word).isPrefixOf tail = true → ∃ rest, tail = c :: rest := by
    intro tail isPrefix
    cases tail with
    | nil => cases isPrefix
    | cons d tail =>
        rw [List.isPrefixOf_cons_cons, Bool.and_eq_true, beq_iff_eq] at isPrefix
        exact ⟨tail, isPrefix.1 ▸ rfl⟩
  cases row with
  | nil => exact absurd rfl some_
  | cons d row =>
      unfold afterWord?
      rw [List.cons_append, List.isPrefixOf_cons_cons, if_neg]
      intro both
      obtain ⟨_, front⟩ := Bool.and_eq_true_iff.mp both
      obtain ⟨more, front⟩ := tail _ front
      cases row with
      | nil => exact inside (delimits c (by rw [List.nil_append] at front; rw [front]; rfl))
      | cons d row =>
          obtain ⟨rfl, _⟩ := List.cons.inj front
          rw [all d (List.mem_cons_of_mem _ List.mem_cons_self)] at other
          cases other

/-- A number is no word. -/
theorem readScalar_row {row rest : List Char} (number : IsNumberRow row) (delimits : Delimits rest) :
    readScalar (row ++ rest) = (ofNumberText? row).map (·, rest) := by
  have none : ∀ entry ∈ words, afterWord? entry.1 (row ++ rest) = none := by
    intro entry inside
    unfold words at inside
    simp only [List.mem_cons, List.not_mem_nil, or_false] at inside
    rcases inside with rfl | rfl | rfl | rfl | rfl | rfl
    · exact afterWord?_row (c := 'n') number rfl
    · exact afterWord?_row (c := 't') number rfl
    · exact afterWord?_row (c := 'f') number rfl
    · exact afterWord?_row (c := 'N') number rfl
    · exact afterWord?_row (c := 'I') number rfl
    · exact afterWord?_minus (c := 'I') number delimits rfl (by decide)
  unfold readScalar
  split
  · rename_i found same
    obtain ⟨⟨word, value⟩, inside, applied⟩ := List.exists_of_findSome?_eq_some same
    dsimp only at applied
    rw [none (word, value) inside] at applied
    cases applied
  · exact readNumber_row number delimits

end TaintFlow.Json
