import TaintFlow.Json.Reader
import TaintFlow.Json.Basic
import TaintFlow.Proofs.Number.Digits

/-!
# Quoted texts that are read back

A quoted text is read back as it was written, but for one thing: two characters
that hold the halves of a pair are escapes of the one character that they stand
for together, and are read as that.
-/

namespace TaintFlow

namespace Text

/-- The number of a character is a code point that is not a half. -/
theorem toNat_not_half (c : Char) : c.toNat < 0xD800 ∨ 0xE000 ≤ c.toNat := by
  have valid : c.toNat < 0xD800 ∨ 0xDFFF < c.toNat ∧ c.toNat < 0x110000 := c.valid
  omega

/-- A character is given back by the code point that it holds. -/
theorem charOf_codeOf (c : Char) : charOf (codeOf c) = c := by
  have apart := toNat_not_half c
  unfold codeOf charOf isFirstHalf isSecondHalf
  cases half : isHalf c with
  | true =>
      unfold isHalf halfShift at half
      rw [Bool.and_eq_true, decide_eq_true_eq, decide_eq_true_eq] at half
      unfold halfShift
      rw [if_pos rfl, if_pos]
      · rw [Nat.sub_add_cancel (by omega), Char.ofNat_toNat]
      · simp only [Bool.or_eq_true, Bool.and_eq_true, decide_eq_true_eq]
        omega
  | false =>
      rw [if_neg Bool.false_ne_true, if_neg, Char.ofNat_toNat]
      simp only [Bool.or_eq_true, Bool.and_eq_true, decide_eq_true_eq]
      omega

/-- A code point that is not a half is held by its own character. -/
theorem ofNat_codeOf {c : Char} (whole : codeOf c < 0xD800 ∨ 0xE000 ≤ codeOf c) :
    Char.ofNat (codeOf c) = c := by
  have same := charOf_codeOf c
  unfold charOf isFirstHalf isSecondHalf at same
  rwa [if_neg] at same
  simp only [Bool.or_eq_true, Bool.and_eq_true, decide_eq_true_eq]
  omega

theorem codeOf_lt (c : Char) : codeOf c < 0x110000 := by
  have valid : c.toNat < 0xD800 ∨ 0xDFFF < c.toNat ∧ c.toNat < 0x110000 := c.valid
  unfold codeOf
  split
  · omega
  · omega

theorem toNat_ofNat_of_lt {n : Nat} (near : n < 0xD800) : (Char.ofNat n).toNat = n := by
  have valid : n.isValidChar := .inl near
  rw [Char.ofNat, dif_pos valid]
  rfl

/-- The text in which halves that stand beside each other are joined. -/
def rejoin : List Char → List Char
  | [] => []
  | [c] => [c]
  | c :: d :: rest =>
    if isFirstHalf (codeOf c) && isSecondHalf (codeOf d) then
      Char.ofNat (joined (codeOf c) (codeOf d)) :: rejoin rest
    else c :: rejoin (d :: rest)

theorem codeOf_of_not_isHalf {c : Char} (whole : isHalf c = false) :
    isFirstHalf (codeOf c) = false := by
  have apart := toNat_not_half c
  unfold codeOf isFirstHalf
  rw [whole, if_neg Bool.false_ne_true]
  simp only [Bool.and_eq_false_iff, decide_eq_false_iff_not]
  omega

/-- A printable character of the ASCII block holds no half. -/
theorem isHalf_of_isPlainAscii {c : Char} (plain : isPlainAscii c = true) : isHalf c = false := by
  unfold isPlainAscii at plain
  rw [Bool.and_eq_true, decide_eq_true_eq, decide_eq_true_eq] at plain
  unfold isHalf halfShift
  rw [Bool.and_eq_false_iff]
  exact .inl (decide_eq_false (by omega))

theorem rejoin_of_not_hasHalf {text : List Char} (whole : hasHalf text = false) :
    rejoin text = text := by
  unfold hasHalf at whole
  induction text with
  | nil => rfl
  | cons c rest ih =>
      rw [List.any_cons, Bool.or_eq_false_iff] at whole
      cases rest with
      | nil => rfl
      | cons d rest =>
          rw [rejoin, codeOf_of_not_isHalf whole.1, Bool.false_and, if_neg Bool.false_ne_true,
            ih whole.2]

end Text

namespace Json

open Number Text

/-! ## Units -/

theorem hexPadded_four {n : Nat} (small : n < 0x10000) :
    hexPadded 4 n = [Nat.digitChar (n / 4096), Nat.digitChar (n / 256 % 16),
      Nat.digitChar (n / 16 % 16), Nat.digitChar (n % 16)] := by
  unfold hexPadded
  by_cases one : n < 16
  · rw [Nat.toDigits_of_lt_base one]
    have : n / 4096 = 0 ∧ n / 256 % 16 = 0 ∧ n / 16 % 16 = 0 ∧ n % 16 = n := by omega
    simp only [this]
    rfl
  · rw [Nat.toDigits_of_base_le (by omega) (by omega)]
    by_cases two : n / 16 < 16
    · rw [Nat.toDigits_of_lt_base two]
      have : n / 4096 = 0 ∧ n / 256 % 16 = 0 ∧ n / 16 % 16 = n / 16 := by omega
      simp only [this]
      rfl
    · rw [Nat.toDigits_of_base_le (by omega) (by omega)]
      by_cases three : n / 16 / 16 < 16
      · rw [Nat.toDigits_of_lt_base three]
        have : n / 4096 = 0 ∧ n / 16 / 16 = n / 256 % 16 := by omega
        simp only [this]
        rfl
      · rw [Nat.toDigits_of_base_le (by omega) (by omega),
          Nat.toDigits_of_lt_base (n := n / 16 / 16 / 16) (by omega)]
        have : n / 16 / 16 / 16 = n / 4096 ∧ n / 16 / 16 % 16 = n / 256 % 16 := by omega
        simp only [this]
        rfl

/-- Four hexadecimal digits are read as the unit that they write. -/
theorem readUnit_hexPadded {n : Nat} (small : n < 0x10000) (rest : List Char) :
    readUnit (hexPadded 4 n ++ rest) = some (n, rest) := by
  rw [hexPadded_four small]
  have first := digitIn?_digitChar 16 (by decide) (n / 4096) (by omega)
  have second := digitIn?_digitChar 16 (by decide) (n / 256 % 16) (by omega)
  have third := digitIn?_digitChar 16 (by decide) (n / 16 % 16) (by omega)
  have fourth := digitIn?_digitChar 16 (by decide) (n % 16) (by omega)
  have sum : (((0 * 16 + n / 4096) * 16 + n / 256 % 16) * 16 + n / 16 % 16) * 16 + n % 16 = n := by
    omega
  show (ofDigits? 16 [_, _, _, _]).map (·, rest) = _
  simp only [ofDigits?, List.foldl_cons, List.foldl_nil, first, second, third, fourth,
    Option.bind_eq_bind, Option.bind_some, Option.pure_def, Option.map_some, sum]

/-! ## Escapes -/

/-- No escape of a second half stands at the front. -/
def Apart (tail : List Char) : Prop :=
  ∀ rest, tail = '\\' :: 'u' :: rest →
    ∃ low after, readUnit rest = some (low, after) ∧ isSecondHalf low = false

/-- A character before the rest of a quoted text. -/
def prepend (c : Char) (read : List Char × List Char) : List Char × List Char :=
  (c :: read.1, read.2)

theorem unitEscape_append (n : Nat) (tail : List Char) :
    unitEscape n ++ tail = '\\' :: 'u' :: (hexPadded 4 n ++ tail) := rfl

/-- The escape of a unit that is not joined with what follows. -/
theorem readQuoted_unitEscape {n fuel : Nat} {tail : List Char} (small : n < 0x10000)
    (apart : isFirstHalf n = true → Apart tail) :
    readQuoted (fuel + 1) (unitEscape n ++ tail) =
      (readQuoted fuel tail).map (prepend (charOf n)) := by
  have unit := readUnit_hexPadded small tail
  rw [unitEscape_append, readQuoted]
  simp only [Char.reduceEq, if_false, if_true, or_self, unit]
  split
  · rename_i rest
    split
    · rename_i first
      obtain ⟨low, after, read, whole⟩ := apart first rest rfl
      rw [read]
      simp only [whole, Bool.false_eq_true, if_false]
      rfl
    · rfl
  · rfl

/-- The escapes of two halves are read as the character that they stand for together. -/
theorem readQuoted_pair {high low fuel : Nat} {tail : List Char}
    (first : isFirstHalf high = true) (second : isSecondHalf low = true) :
    readQuoted (fuel + 1) (unitEscape high ++ (unitEscape low ++ tail)) =
      (readQuoted fuel tail).map (prepend (Char.ofNat (joined high low))) := by
  have small : high < 0x10000 ∧ low < 0x10000 := by
    simp only [isFirstHalf, isSecondHalf, Bool.and_eq_true, decide_eq_true_eq] at first second
    omega
  have readHigh := readUnit_hexPadded small.1 (unitEscape low ++ tail)
  have readLow := readUnit_hexPadded small.2 tail
  rw [unitEscape_append, readQuoted]
  simp only [Char.reduceEq, if_false, if_true, or_self, readHigh]
  simp only [unitEscape_append, first, readLow, second, if_true]
  rfl

/-- A code point beyond the basic plane is joined from its two halves. -/
theorem joined_halves {n : Nat} (far : 0x10000 ≤ n) (valid : n < 0x110000) :
    isFirstHalf (0xD800 + (n - 0x10000) / 0x400) = true ∧
      isSecondHalf (0xDC00 + (n - 0x10000) % 0x400) = true ∧
        joined (0xD800 + (n - 0x10000) / 0x400) (0xDC00 + (n - 0x10000) % 0x400) = n := by
  refine ⟨?_, ?_, ?_⟩
  · unfold isFirstHalf
    rw [Bool.and_eq_true, decide_eq_true_eq, decide_eq_true_eq]
    omega
  · unfold isSecondHalf
    rw [Bool.and_eq_true, decide_eq_true_eq, decide_eq_true_eq]
    omega
  · unfold joined
    omega

/-- The escapes of a single letter and the characters that they stand for. -/
def letterEscapes : List (Char × Char) :=
  [('"', '"'), ('\\', '\\'), ('n', '\n'), ('r', '\r'), ('t', '\t'), ('b', '\x08'), ('f', '\x0c')]

theorem readQuoted_letter {e d : Char} {fuel : Nat} {tail : List Char}
    (escape : (e, d) ∈ letterEscapes) :
    readQuoted (fuel + 1) ('\\' :: e :: tail) = (readQuoted fuel tail).map (prepend d) := by
  rw [readQuoted]
  unfold letterEscapes at escape
  simp only [List.mem_cons, Prod.mk.injEq, List.not_mem_nil, or_false] at escape
  rcases escape with ⟨rfl, rfl⟩ | ⟨rfl, rfl⟩ | ⟨rfl, rfl⟩ | ⟨rfl, rfl⟩ | ⟨rfl, rfl⟩ | ⟨rfl, rfl⟩ |
    ⟨rfl, rfl⟩ <;>
    (simp only [Char.reduceEq, if_false, if_true, or_self, or_true, or_false]; rfl)

theorem readQuoted_plain {c : Char} {fuel : Nat} {tail : List Char} (quote : c ≠ '"')
    (slash : c ≠ '\\') (shown : 0x20 ≤ c.toNat) :
    readQuoted (fuel + 1) (c :: tail) = (readQuoted fuel tail).map (prepend c) := by
  rw [readQuoted.eq_def]
  dsimp only
  rw [if_neg quote, if_neg slash, if_neg (Nat.not_lt_of_le shown)]
  rfl

/-- The four ways in which a code point is written. -/
theorem escapeCode_cases (n : Nat) :
    (∃ e, escapeCode n = ['\\', e] ∧ n < 0xD800 ∧ (e, Char.ofNat n) ∈ letterEscapes) ∨
      (escapeCode n = [Char.ofNat n] ∧ 0x20 ≤ n ∧ n < 0x7F ∧ n ≠ '"'.toNat ∧ n ≠ '\\'.toNat) ∨
      (escapeCode n = unitEscape n ∧ n < 0x10000) ∨
      (escapeCode n = unitEscape (0xD800 + (n - 0x10000) / 0x400) ++
        unitEscape (0xDC00 + (n - 0x10000) % 0x400) ∧ 0x10000 ≤ n) := by
  unfold escapeCode
  split
  · rename_i mark
    rcases mark with rfl | rfl
    · exact .inl ⟨_, rfl, by decide, by decide⟩
    · exact .inl ⟨_, rfl, by decide, by decide⟩
  rename_i notMark
  split
  · rename_i code
    exact .inl ⟨_, rfl, by omega, by rw [code]; decide⟩
  split
  · rename_i code
    exact .inl ⟨_, rfl, by omega, by rw [code]; decide⟩
  split
  · rename_i code
    exact .inl ⟨_, rfl, by omega, by rw [code]; decide⟩
  split
  · rename_i code
    exact .inl ⟨_, rfl, by omega, by rw [code]; decide⟩
  split
  · rename_i code
    exact .inl ⟨_, rfl, by omega, by rw [code]; decide⟩
  split
  · rename_i shown
    exact .inr (.inl ⟨rfl, shown.1, shown.2, not_or.mp notMark⟩)
  split
  · rename_i small
    exact .inr (.inr (.inl ⟨rfl, small⟩))
  · rename_i far
    exact .inr (.inr (.inr ⟨rfl, Nat.le_of_not_lt far⟩))

/-- A code point that is written is read as its character, unless it is joined with what follows. -/
theorem readQuoted_escapeCode {c : Char} {fuel : Nat} {tail : List Char}
    (apart : isFirstHalf (codeOf c) = true → Apart tail) :
    readQuoted (fuel + 1) (escapeCode (codeOf c) ++ tail) =
      (readQuoted fuel tail).map (prepend c) := by
  have held := charOf_codeOf c
  have valid := codeOf_lt c
  have whole : codeOf c < 0xD800 ∨ 0xE000 ≤ codeOf c → Char.ofNat (codeOf c) = c := ofNat_codeOf
  generalize codeOf c = n at *
  rcases escapeCode_cases n with ⟨e, letter, near, escape⟩ | ⟨plain, low, high, notMark⟩ |
    ⟨unit, small⟩ | ⟨pair, far⟩
  · rw [whole (.inl near)] at escape
    rw [letter]
    exact readQuoted_letter escape
  · have same : Char.ofNat n = c := whole (.inl (by omega))
    have number : c.toNat = n := by
      rw [← same]
      exact toNat_ofNat_of_lt (by omega)
    rw [plain, same]
    refine readQuoted_plain ?_ ?_ (by omega)
    · rintro rfl
      exact notMark.1 number.symm
    · rintro rfl
      exact notMark.2 number.symm
  · rw [unit, ← held]
    exact readQuoted_unitEscape small apart
  · obtain ⟨first, second, both⟩ := joined_halves far valid
    rw [pair, List.append_assoc, readQuoted_pair first second, both, whole (.inr (by omega))]

/-- What begins with a code point stands apart unless the code point is a second half. -/
theorem Apart.of_escapeCode {n : Nat} {tail : List Char} (valid : n < 0x110000)
    (whole : isSecondHalf n = false) : Apart (escapeCode n ++ tail) := by
  intro rest front
  rcases escapeCode_cases n with ⟨e, letter, _, escape⟩ | ⟨plain, low, high, _, notSlash⟩ |
    ⟨unit, small⟩ | ⟨pair, far⟩
  · rw [letter] at front
    have other : ∀ pair ∈ letterEscapes, pair.1 ≠ 'u' := by decide
    exact absurd (List.cons.inj (List.cons.inj front).2).1 (other _ escape)
  · rw [plain] at front
    have slash := congrArg Char.toNat (List.cons.inj front).1
    rw [toNat_ofNat_of_lt (by omega)] at slash
    exact absurd slash notSlash
  · rw [unit, unitEscape_append] at front
    obtain rfl := (List.cons.inj (List.cons.inj front).2).2
    exact ⟨n, tail, readUnit_hexPadded small tail, whole⟩
  · rw [pair, List.append_assoc, unitEscape_append] at front
    obtain rfl := (List.cons.inj (List.cons.inj front).2).2
    obtain ⟨first, _⟩ := joined_halves far valid
    refine ⟨_, _, readUnit_hexPadded (by omega) _, ?_⟩
    unfold isFirstHalf at first
    unfold isSecondHalf
    rw [Bool.and_eq_true, decide_eq_true_eq, decide_eq_true_eq] at first
    rw [Bool.and_eq_false_iff, decide_eq_false_iff_not]
    omega

theorem escapeCode_of_half {n : Nat} (low : 0xD800 ≤ n) (high : n < 0x10000) :
    escapeCode n = unitEscape n := by
  rcases escapeCode_cases n with ⟨_, _, near, _⟩ | ⟨_, _, near, _⟩ | ⟨unit, _⟩ | ⟨_, far⟩
  · omega
  · omega
  · exact unit
  · omega

theorem readQuoted_quote (fuel : Nat) (rest : List Char) :
    readQuoted (fuel + 1) ('"' :: rest) = some ([], rest) := by
  rw [readQuoted.eq_def]
  exact if_pos rfl

/-- A written text is read up to its closing quote, halves that stand beside each other being
joined. -/
theorem readQuoted_written (text : List Char) (rest : List Char) {fuel : Nat}
    (enough : text.length < fuel) :
    readQuoted fuel (text.flatMap (fun c => escapeCode (codeOf c)) ++ '"' :: rest) =
      some (rejoin text, rest) := by
  obtain ⟨fuel, rfl⟩ : ∃ more, fuel = more + 1 := ⟨fuel - 1, by omega⟩
  fun_induction rejoin text generalizing fuel with
  | case1 => exact readQuoted_quote fuel rest
  | case2 c =>
      obtain ⟨fuel, rfl⟩ : ∃ more, fuel = more + 1 :=
        ⟨fuel - 1, by simp only [List.length_cons, List.length_nil] at enough; omega⟩
      have apart : Apart ('"' :: rest) := by
        intro tail front
        cases front
      rw [List.flatMap_cons, List.flatMap_nil, List.append_nil,
        readQuoted_escapeCode fun _ => apart, readQuoted_quote]
      rfl
  | case3 c d text both ih =>
      obtain ⟨first, second⟩ := Bool.and_eq_true_iff.mp both
      have ranges := And.intro first second
      unfold isFirstHalf isSecondHalf at ranges
      simp only [Bool.and_eq_true, decide_eq_true_eq] at ranges
      simp only [List.length_cons] at enough
      obtain ⟨fuel, rfl⟩ : ∃ more, fuel = more + 1 := ⟨fuel - 1, by omega⟩
      rw [List.flatMap_cons, List.flatMap_cons, escapeCode_of_half (by omega) (by omega),
        escapeCode_of_half (by omega) (by omega), List.append_assoc, List.append_assoc,
        readQuoted_pair first second, ih fuel (by omega)]
      rfl
  | case4 c d text apart ih =>
      simp only [List.length_cons] at enough ih
      obtain ⟨fuel, rfl⟩ : ∃ more, fuel = more + 1 := ⟨fuel - 1, by omega⟩
      have next : isFirstHalf (codeOf c) = true →
          Apart ((d :: text).flatMap (fun c => escapeCode (codeOf c)) ++ '"' :: rest) := by
        intro first
        rw [List.flatMap_cons, List.append_assoc]
        refine Apart.of_escapeCode (codeOf_lt d) ?_
        rw [first, Bool.true_and, Bool.not_eq_true] at apart
        exact apart
      rw [List.flatMap_cons, List.append_assoc, readQuoted_escapeCode next, ih fuel (by omega)]
      rfl

/-- A quoted text without halves is read back as it is. -/
theorem readQuoted_of_not_hasHalf {text : List Char} (whole : hasHalf text = false)
    (rest : List Char) {fuel : Nat} (enough : text.length < fuel) :
    readQuoted fuel (text.flatMap (fun c => escapeCode (codeOf c)) ++ '"' :: rest) =
      some (text, rest) := by
  rw [readQuoted_written text rest enough, rejoin_of_not_hasHalf whole]

end Json

end TaintFlow
