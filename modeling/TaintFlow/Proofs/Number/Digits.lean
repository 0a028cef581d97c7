import Mathlib.Algebra.Group.Nat.Defs
import Mathlib.Data.List.Basic
import Mathlib.Data.List.Induction
import Mathlib.Data.List.TakeWhile
import TaintFlow.Number.Notation
import TaintFlow.Number.Reading
import TaintFlow.Text.Quoted

/-!
# Rows of digits

A row of digits that a number is written in is read as the number.  Zeros before
a row leave its number alone, and zeros behind it scale the number by the base.
-/

namespace TaintFlow.Number

/-! ## Digits -/

theorem digitIn?_digitChar (base : Nat) (small : base ≤ 16) :
    ∀ d < base, digitIn? base (Nat.digitChar d) = some d := by
  intro d inside
  have hexadecimal : ∀ d < 16, digitIn? 16 (Nat.digitChar d) = some d := by decide
  have read := hexadecimal d (by omega)
  unfold digitIn? at read ⊢
  rw [Option.filter_eq_some_iff] at read ⊢
  exact ⟨read.1, decide_eq_true inside⟩

theorem digitIn?_zero {base : Nat} (some_ : 0 < base) : digitIn? base '0' = some 0 := by
  unfold digitIn?
  exact Option.filter_eq_some_iff.mpr ⟨rfl, decide_eq_true some_⟩

theorem isDigit_of_isDigit {c : Char} (digit : c.isDigit = true) : isDigit c = true := by
  have inRange : '0' ≤ c ∧ c ≤ '9' := by
    unfold Char.isDigit at digit
    rw [Bool.and_eq_true, decide_eq_true_eq, decide_eq_true_eq] at digit
    exact digit
  unfold isDigit digitValue?
  rw [if_pos inRange]
  rfl

/-- What lies between two printable characters of the ASCII block is one. -/
theorem isPlainAscii_of_between {first last c : Char} (between : first ≤ c ∧ c ≤ last)
    (low : 0x20 ≤ first.toNat) (high : last.toNat < 0x7F) : Text.isPlainAscii c = true := by
  have above : first.toNat ≤ c.toNat := between.1
  have below : c.toNat ≤ last.toNat := between.2
  unfold Text.isPlainAscii
  rw [Bool.and_eq_true, decide_eq_true_eq, decide_eq_true_eq]
  omega

/-- A digit in any base is a printable character. -/
theorem isPlainAscii_of_digitIn? {base d : Nat} {c : Char} (digit : digitIn? base c = some d) :
    Text.isPlainAscii c = true := by
  unfold digitIn? at digit
  obtain ⟨read, _⟩ := Option.filter_eq_some_iff.mp digit
  split at read
  · exact isPlainAscii_of_between ‹_› (by decide) (by decide)
  split at read
  · exact isPlainAscii_of_between ‹_› (by decide) (by decide)
  split at read
  · exact isPlainAscii_of_between ‹_› (by decide) (by decide)
  · cases read

theorem isPlainAscii_of_isDigit {c : Char} (digit : isDigit c = true) :
    Text.isPlainAscii c = true := by
  unfold isDigit digitValue? at digit
  split at digit
  · exact isPlainAscii_of_between ‹_› (by decide) (by decide)
  · cases digit

/-- What a row of decimal digits has in it. -/
def AllDigits (row : List Char) : Prop := ∀ c ∈ row, isDigit c = true

theorem allDigits_toDigits (n : Nat) : AllDigits (Nat.toDigits 10 n) := fun _ inside =>
  isDigit_of_isDigit (Nat.isDigit_of_mem_toDigits (by decide) (by decide) inside)

theorem allDigits_zeros (count : Nat) : AllDigits (List.replicate count '0') := by
  intro c inside
  rw [(List.mem_replicate.mp inside).2]
  rfl

theorem AllDigits.append {row row' : List Char} (digits : AllDigits row)
    (digits' : AllDigits row') : AllDigits (row ++ row') := by
  intro c inside
  rcases List.mem_append.mp inside with before | after
  · exact digits c before
  · exact digits' c after

theorem AllDigits.sublist {row row' : List Char} (digits : AllDigits row)
    (part : row'.Sublist row) : AllDigits row' := fun c inside => digits c (part.subset inside)

/-- The digits at the front of a text are taken whole, up to what is no digit. -/
theorem AllDigits.takeWhile_append {row : List Char} (digits : AllDigits row) (rest : List Char)
    (stops : ∀ c ∈ rest.head?, isDigit c = false) :
    (row ++ rest).takeWhile isDigit = row ∧ (row ++ rest).dropWhile isDigit = rest := by
  rw [List.takeWhile_append_of_pos digits, List.dropWhile_append_of_pos digits]
  cases rest with
  | nil => exact ⟨List.append_nil row, rfl⟩
  | cons c rest =>
      rw [List.takeWhile_cons, List.dropWhile_cons, stops c rfl]
      exact ⟨List.append_nil row, rfl⟩

/-! ## The number of a row -/

theorem ofDigits?_concat (base : Nat) (row : List Char) (c : Char) :
    ofDigits? base (row ++ [c]) =
      (do return (← ofDigits? base row) * base + (← digitIn? base c)) :=
  List.foldl_concat _ _ _ _

/-- What is read as a number has nothing but digits in it. -/
theorem exists_digitIn?_of_ofDigits? {base : Nat} {row : List Char} {n : Nat}
    (read : ofDigits? base row = some n) : ∀ c ∈ row, ∃ d, digitIn? base c = some d := by
  induction row using List.reverseRecOn generalizing n with
  | nil => exact fun _ inside => absurd inside List.not_mem_nil
  | append_singleton row c ih =>
      rw [ofDigits?_concat] at read
      obtain ⟨total, before, read⟩ := Option.bind_eq_some_iff.mp read
      obtain ⟨d, last, _⟩ := Option.bind_eq_some_iff.mp read
      intro c' inside
      rcases List.mem_append.mp inside with front | back
      · exact ih before c' front
      · exact ⟨d, List.mem_singleton.mp back ▸ last⟩

/-- What a number is written as in a base is read as the number. -/
theorem ofDigits?_toDigits (base : Nat) (some_ : 1 < base) (small : base ≤ 16) (n : Nat) :
    ofDigits? base (Nat.toDigits base n) = some n := by
  induction n using Nat.strongRecOn with
  | ind n ih =>
      by_cases short : n < base
      · rw [Nat.toDigits_of_lt_base short, ← List.nil_append [_], ofDigits?_concat,
          digitIn?_digitChar base small n short]
        show some (0 * base + n) = some n
        rw [Nat.zero_mul, Nat.zero_add]
      · have long := Nat.le_of_not_lt short
        rw [Nat.toDigits_of_base_le some_ long, ofDigits?_concat,
          ih (n / base) (Nat.div_lt_self (by omega) some_),
          digitIn?_digitChar base small (n % base) (Nat.mod_lt _ (by omega))]
        show some (n / base * base + n % base) = some n
        rw [Nat.div_add_mod']

/-- Zeros before a row leave its number alone. -/
theorem ofDigits?_zeros_append (base : Nat) (some_ : 0 < base) (count : Nat) (row : List Char) :
    ofDigits? base (List.replicate count '0' ++ row) = ofDigits? base row := by
  have zero := digitIn?_zero some_
  have zeros : ofDigits? base (List.replicate count '0') = some 0 := by
    induction count with
    | zero => rfl
    | succ count ih =>
        rw [List.replicate_succ', ofDigits?_concat, ih, zero]
        show some (0 * base + 0) = some 0
        rw [Nat.zero_mul]
  unfold ofDigits? at zeros ⊢
  rw [List.foldl_append, zeros]

/-- Zeros behind a row scale its number. -/
theorem ofDigits?_append_zeros (base : Nat) (some_ : 0 < base) (row : List Char) (count : Nat) :
    ofDigits? base (row ++ List.replicate count '0') =
      (ofDigits? base row).map (· * base ^ count) := by
  have zero := digitIn?_zero some_
  induction count with
  | zero => simp
  | succ count ih =>
      rw [List.replicate_succ', ← List.append_assoc, ofDigits?_concat, ih, zero]
      cases ofDigits? base row with
      | none => rfl
      | some n =>
          show some (n * base ^ count * base + 0) = some (n * base ^ (count + 1))
          rw [Nat.pow_succ, Nat.add_zero, Nat.mul_assoc]

/-- What a number is padded to in hexadecimal is read as the number. -/
theorem ofDigits?_hexPadded (width n : Nat) :
    ofDigits? 16 (Text.hexPadded width n) = some n := by
  unfold Text.hexPadded
  rw [ofDigits?_zeros_append _ (by decide)]
  exact ofDigits?_toDigits 16 (by decide) (by decide) n

/-! ## Digits without zeros at the end -/

theorem trimZeros_append (row : List Char) :
    ∃ count, row = Digits.trimZeros row ++ List.replicate count '0' := by
  have zeros : row.reverse.takeWhile (· = '0') =
      List.replicate (row.reverse.takeWhile (· = '0')).length '0' := by
    refine List.eq_replicate_of_mem fun c inside => ?_
    have zero : decide (c = '0') = true := List.mem_takeWhile_imp (p := (· = '0')) inside
    exact of_decide_eq_true zero
  refine ⟨(row.reverse.takeWhile (· = '0')).length, ?_⟩
  unfold Digits.trimZeros
  rw [← List.reverse_replicate, ← zeros, ← List.reverse_append, List.takeWhile_append_dropWhile,
    List.reverse_reverse]

/-- The first digit of a number other than zero is none. -/
theorem toDigits_head {n : Nat} (some_ : n ≠ 0) :
    ∃ c rest, Nat.toDigits 10 n = c :: rest ∧ c ≠ '0' := by
  induction n using Nat.strongRecOn with
  | ind n ih =>
      by_cases short : n < 10
      · refine ⟨Nat.digitChar n, [], Nat.toDigits_of_lt_base short, ?_⟩
        have : ∀ d < 10, d ≠ 0 → Nat.digitChar d ≠ '0' := by decide
        exact this n short some_
      · have long := Nat.le_of_not_lt short
        obtain ⟨c, rest, same, other⟩ := ih (n / 10) (by omega) (by omega)
        refine ⟨c, rest ++ [Nat.digitChar (n % 10)], ?_, other⟩
        rw [Nat.toDigits_of_base_le (by decide) long, same, List.cons_append]

/-- A row that begins with no zero still does without the zeros at its end. -/
theorem trimZeros_head {c : Char} (rest : List Char) (other : c ≠ '0') :
    ∃ rest', Digits.trimZeros (c :: rest) = c :: rest' := by
  obtain ⟨count, same⟩ := trimZeros_append (c :: rest)
  cases trimmed : Digits.trimZeros (c :: rest) with
  | nil =>
      rw [trimmed, List.nil_append] at same
      have zero : c ∈ List.replicate count '0' := same ▸ List.mem_cons_self
      exact absurd (List.mem_replicate.mp zero).2 other
  | cons d rest' =>
      rw [trimmed, List.cons_append] at same
      exact ⟨rest', congrArg (· :: rest') (List.cons.inj same).1.symm⟩

end TaintFlow.Number
