import TaintFlow.Proofs.Json.Number
import TaintFlow.Proofs.Json.Text

/-!
# JSON in printable ASCII

Whatever the texts of a value hold, the value is written in one line of printable
characters of the ASCII block, none of which ends the line: `ascii_write`.
-/

namespace TaintFlow.Json

open Number Text

/-! ## Numbers and texts -/

/-- What a number is written in is printable. -/
theorem isPlainAscii_of_isNumberChar {c : Char} (number : isNumberChar c = true) :
    isPlainAscii c = true := by
  unfold isNumberChar at number
  simp only [Bool.or_eq_true, decide_eq_true_eq] at number
  rcases number with ((((digit | rfl) | rfl) | rfl) | rfl) | rfl
  · exact isPlainAscii_of_isDigit digit
  all_goals rfl

theorem IsNumberRow.ascii {row : List Char} (number : IsNumberRow row) :
    row.all isPlainAscii = true :=
  List.all_eq_true.mpr fun c inside => isPlainAscii_of_isNumberChar (number.2 c inside)

theorem ascii_hexPadded (width n : Nat) : (hexPadded width n).all isPlainAscii = true :=
  List.all_eq_true.mpr fun c inside => by
    obtain ⟨d, digit⟩ := exists_digitIn?_of_ofDigits? (ofDigits?_hexPadded width n) c inside
    exact isPlainAscii_of_digitIn? digit

theorem ascii_unitEscape (n : Nat) : (unitEscape n).all isPlainAscii = true := by
  unfold unitEscape
  rw [List.all_cons, List.all_cons, ascii_hexPadded]
  rfl

/-- No code point is written in anything but printable ASCII. -/
theorem ascii_escapeCode (n : Nat) : (escapeCode n).all isPlainAscii = true := by
  rcases escapeCode_cases n with ⟨e, letter, -, escape⟩ | ⟨shown, low, high, -⟩ | ⟨unit, -⟩ |
    ⟨pair, -⟩
  · have letters : ∀ entry ∈ letterEscapes, ['\\', entry.1].all isPlainAscii = true := by decide
    rw [letter]
    exact letters _ escape
  · have number : (Char.ofNat n).toNat = n := toNat_ofNat_of_lt (by omega)
    rw [shown, List.all_cons, List.all_nil, Bool.and_true]
    unfold isPlainAscii
    rw [number, Bool.and_eq_true, decide_eq_true_eq, decide_eq_true_eq]
    exact ⟨low, high⟩
  · rw [unit]
    exact ascii_unitEscape n
  · rw [pair, List.all_append, ascii_unitEscape, ascii_unitEscape]
    rfl

theorem ascii_writeText (s : String) : (writeText s).all isPlainAscii = true := by
  have each : (s.toList.flatMap fun c => escapeCode (codeOf c)).all isPlainAscii = true := by
    rw [List.all_flatMap, List.all_eq_true]
    exact fun c _ => ascii_escapeCode (codeOf c)
  unfold writeText
  rw [List.all_cons, List.all_append, each]
  rfl

theorem ascii_writeFloat (x : Binary64) : (floatStyle.write x).all isPlainAscii = true := by
  cases x with
  | finite x => exact (isNumberRow_finite x).ascii
  | infinite negative => cases negative <;> rfl
  | nan mark => rfl

/-! ## Values -/

mutual

/-- In one line every value is written in printable ASCII. -/
theorem ascii_writeAt (depth : Nat) :
    ∀ value : Json, (writeAt .line depth value).all isPlainAscii = true
  | .null => rfl
  | .bool b => by cases b <;> rfl
  | .int n => (isNumberRow_int n).ascii
  | .float x => ascii_writeFloat x
  | .text s => ascii_writeText s
  | .array [] => rfl
  | .array (item :: rest) => by
      have first := ascii_writeAt (depth + 1) item
      have others := ascii_writeItems (depth + 1) rest
      rw [writeAt]
      simp only [Layout.breakAt, List.all_cons, List.all_append, List.all_nil, first, others]
      rfl
  | .object [] => rfl
  | .object ((key, value) :: rest) => by
      have name := ascii_writeText key
      have first := ascii_writeAt (depth + 1) value
      have others := ascii_writeMembers (depth + 1) rest
      rw [writeAt]
      simp only [Layout.breakAt, List.all_cons, List.all_append, List.all_nil, name, first, others]
      rfl

theorem ascii_writeItems (depth : Nat) :
    ∀ items : List Json, (writeItems .line depth items).all isPlainAscii = true
  | [] => rfl
  | item :: rest => by
      have first := ascii_writeAt depth item
      have others := ascii_writeItems depth rest
      rw [writeItems]
      simp only [Layout.between, List.all_cons, List.all_append, List.all_nil, first, others]
      rfl

theorem ascii_writeMembers (depth : Nat) :
    ∀ members : List (String × Json), (writeMembers .line depth members).all isPlainAscii = true
  | [] => rfl
  | (key, value) :: rest => by
      have name := ascii_writeText key
      have first := ascii_writeAt depth value
      have others := ascii_writeMembers depth rest
      rw [writeMembers]
      simp only [Layout.between, List.all_cons, List.all_append, List.all_nil, name, first, others]
      rfl

end

end TaintFlow.Json
