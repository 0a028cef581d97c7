import TaintFlow.Text.Base64
import TaintFlow.Text.Utf8

/-!
# Encodings are read back

Bytes that are written in Base64 are read back, and so are texts that are written
in UTF-8: `Base64.decode_encode` and `Utf8.decode_encode`.
-/

namespace TaintFlow.Text.Base64

/-!
## Base64

Whatever bytes are written, in full groups or with a last group that is short,
they are read back: `decode_encode`.
-/

/-- A character that is written for six bits is read as these bits. -/
theorem bits?_symbol {n : Nat} (six : n < 64) : bits? (symbol n) = some n := by
  have all : ∀ m : Fin 64, bits? (symbol m.val) = some m.val := by decide
  exact all ⟨n, six⟩

/-- No six bits are written as the filling of a last group. -/
theorem symbol_ne_filling {n : Nat} (six : n < 64) : symbol n ≠ '=' := by
  have all : ∀ m : Fin 64, symbol m.val ≠ '=' := by decide
  exact all ⟨n, six⟩

/-- A group that is not filled up is three bytes, whatever stands behind it. -/
theorem decode_group {p q r s : Char} (third : r ≠ '=') (fourth : s ≠ '=') (rest : List Char) :
    decode (p :: q :: r :: s :: rest) = do
      let p ← bits? p
      let q ← bits? q
      let r ← bits? r
      let s ← bits? s
      let tail ← decode rest
      return UInt8.ofNat (p * 4 + q / 16) :: UInt8.ofNat (q % 16 * 16 + r / 4) ::
        UInt8.ofNat (r % 4 * 64 + s) :: tail := by
  rw [decode.eq_def]
  split
  · rename_i same
    cases same
  · rename_i same
    simp only [List.cons.injEq] at same
    exact absurd same.2.2.1 third
  · rename_i same
    simp only [List.cons.injEq] at same
    exact absurd same.2.2.2.1 fourth
  · rename_i same
    simp only [List.cons.injEq] at same
    obtain ⟨rfl, rfl, rfl, rfl, rfl⟩ := same
    rfl
  · rename_i other
    exact absurd rfl (other _ _ _ _ _)

/-- The eight bits of a byte that has been cut into groups and put together. -/
theorem ofNat_eq {n : Nat} {b : UInt8} (same : n = b.toNat) : UInt8.ofNat n = b := by
  rw [same, UInt8.ofNat_toNat]

/-- Bytes are read back as they were written. -/
theorem decode_encode (bytes : List UInt8) : decode (encode bytes) = some bytes := by
  fun_induction encode bytes with
  | case1 => rfl
  | case2 a =>
      have small := a.toNat_lt
      rw [decode, bits?_symbol (by omega), bits?_symbol (by omega)]
      exact congrArg some (congrArg (· :: []) (ofNat_eq (by omega)))
  | case3 a b =>
      have small := a.toNat_lt
      have small' := b.toNat_lt
      rw [decode, bits?_symbol (by omega), bits?_symbol (by omega), bits?_symbol (by omega)]
      · show some [_, _] = _
        rw [ofNat_eq (b := a) (by omega), ofNat_eq (b := b) (by omega)]
      · exact fun filled => absurd filled (symbol_ne_filling (by omega))
  | case4 a b c rest ih =>
      have small := a.toNat_lt
      have small' := b.toNat_lt
      have small'' := c.toNat_lt
      rw [decode_group (symbol_ne_filling (by omega)) (symbol_ne_filling (by omega)), ih,
        bits?_symbol (by omega), bits?_symbol (by omega), bits?_symbol (by omega),
        bits?_symbol (by omega)]
      show some (_ :: _ :: _ :: rest) = _
      rw [ofNat_eq (b := a) (by omega), ofNat_eq (b := b) (by omega), ofNat_eq (b := c) (by omega)]

end TaintFlow.Text.Base64

/-! ## UTF-8 -/

namespace TaintFlow.Text.Utf8

/-! ## Single bytes -/

theorem toNat_ofNat {n : Nat} (small : n < 256) : (UInt8.ofNat n).toNat = n := by
  rw [UInt8.toNat_ofNat', Nat.mod_eq_of_lt small]

theorem width_eq (b : UInt8) : width b =
    if b.toNat < 0x80 then 1 else if b.toNat < 0xC2 then 0 else if b.toNat < 0xE0 then 2
    else if b.toNat < 0xF0 then 3 else if b.toNat < 0xF5 then 4 else 0 := by
  simp only [width, UInt8.lt_iff_toNat_lt, UInt8.reduceToNat]

/-- A byte that is written after the first one of a character continues it. -/
theorem isTail_iff {b : UInt8} : isTail b = true ↔ 0x80 ≤ b.toNat ∧ b.toNat < 0xC0 := by
  simp only [isTail, Bool.and_eq_true, decide_eq_true_eq, UInt8.le_iff_toNat_le,
    UInt8.lt_iff_toNat_lt, UInt8.reduceToNat]

/-- After most first bytes any byte may stand that continues a character; after some, only such
that the character is not written too long, is no half and is not past the last one. -/
theorem mayFollow_iff {a b : UInt8} : mayFollow a b = true ↔
    (0x80 ≤ b.toNat ∧ b.toNat < 0xC0) ∧ (a.toNat = 0xE0 → 0xA0 ≤ b.toNat) ∧
      (a.toNat = 0xED → b.toNat < 0xA0) ∧ (a.toNat = 0xF0 → 0x90 ≤ b.toNat) ∧
        (a.toNat = 0xF4 → b.toNat < 0x90) := by
  unfold mayFollow
  simp only [← UInt8.toNat_inj, UInt8.reduceToNat]
  split
  · simp only [Bool.and_eq_true, decide_eq_true_eq, UInt8.le_iff_toNat_le, UInt8.lt_iff_toNat_lt,
      UInt8.reduceToNat]
    omega
  · split
    · simp only [Bool.and_eq_true, decide_eq_true_eq, UInt8.le_iff_toNat_le,
        UInt8.lt_iff_toNat_lt, UInt8.reduceToNat]
      omega
    · split
      · simp only [Bool.and_eq_true, decide_eq_true_eq, UInt8.le_iff_toNat_le,
          UInt8.lt_iff_toNat_lt, UInt8.reduceToNat]
        omega
      · split
        · simp only [Bool.and_eq_true, decide_eq_true_eq, UInt8.le_iff_toNat_le,
            UInt8.lt_iff_toNat_lt, UInt8.reduceToNat]
          omega
        · rw [isTail_iff]
          omega

/-! ## Characters -/

variable {index : Nat} {rest : List UInt8}

theorem decodeFrom_one {a : UInt8} (first : width a = 1) :
    decodeFrom index (a :: rest) =
      (decodeFrom (index + 1) rest).map (Char.ofNat a.toNat :: ·) := by
  rw [decodeFrom.eq_def]
  simp only [first]

theorem decodeFrom_two {a b : UInt8} (first : width a = 2) (second : isTail b = true) :
    decodeFrom index (a :: b :: rest) = (decodeFrom (index + 2) rest).map
      (Char.ofNat ((a.toNat - 0xC0) * 64 + tailBits b) :: ·) := by
  rw [decodeFrom.eq_def]
  simp only [first, second, if_true]

theorem decodeFrom_three {a b c : UInt8} (first : width a = 3) (second : mayFollow a b = true)
    (third : isTail c = true) :
    decodeFrom index (a :: b :: c :: rest) = (decodeFrom (index + 3) rest).map
      (Char.ofNat ((a.toNat - 0xE0) * 4096 + tailBits b * 64 + tailBits c) :: ·) := by
  rw [decodeFrom.eq_def]
  simp only [first, second, third, if_true]

theorem decodeFrom_four {a b c d : UInt8} (first : width a = 4) (second : mayFollow a b = true)
    (third : isTail c = true) (fourth : isTail d = true) :
    decodeFrom index (a :: b :: c :: d :: rest) = (decodeFrom (index + 4) rest).map
      (Char.ofNat ((a.toNat - 0xF0) * 262144 + tailBits b * 4096 + tailBits c * 64 +
        tailBits d) :: ·) := by
  rw [decodeFrom.eq_def]
  simp only [first, second, third, fourth, if_true]

/-- The bytes of a character are read as the character. -/
theorem decodeFrom_encodeChar (c : Char) (index : Nat) (rest : List UInt8) :
    ∃ next, decodeFrom index (encodeChar c ++ rest) = (decodeFrom next rest).map (c :: ·) := by
  have whole : c.toNat < 0xD800 ∨ 0xDFFF < c.toNat ∧ c.toNat < 0x110000 := c.valid
  have self := Char.ofNat_toNat c
  unfold encodeChar
  dsimp only
  split
  · rename_i short
    have a := toNat_ofNat (n := c.toNat) (by omega)
    refine ⟨index + 1, (decodeFrom_one ?_).trans ?_⟩
    · rw [width_eq, a, if_pos short]
    · rw [a, self]
      rfl
  · split
    · rename_i ge short
      have a := toNat_ofNat (n := 0xC0 + c.toNat / 64) (by omega)
      have b := toNat_ofNat (n := 0x80 + c.toNat / 1 % 64) (by omega)
      refine ⟨index + 2, (decodeFrom_two ?_ ?_).trans ?_⟩
      · rw [width_eq, a, if_neg (by omega), if_neg (by omega), if_pos (by omega)]
      · rw [isTail_iff, b]
        omega
      · unfold tailBits
        rw [a, b, show (0xC0 + c.toNat / 64 - 0xC0) * 64 + (0x80 + c.toNat / 1 % 64 - 0x80) =
          c.toNat by omega, self]
        rfl
    · split
      · rename_i _ ge short
        have a := toNat_ofNat (n := 0xE0 + c.toNat / 4096) (by omega)
        have b := toNat_ofNat (n := 0x80 + c.toNat / 64 % 64) (by omega)
        have d := toNat_ofNat (n := 0x80 + c.toNat / 1 % 64) (by omega)
        refine ⟨index + 3, (decodeFrom_three ?_ ?_ ?_).trans ?_⟩
        · rw [width_eq, a, if_neg (by omega), if_neg (by omega), if_neg (by omega),
            if_pos (by omega)]
        · rw [mayFollow_iff, a, b]
          omega
        · rw [isTail_iff, d]
          omega
        · unfold tailBits
          rw [a, b, d, show (0xE0 + c.toNat / 4096 - 0xE0) * 4096 +
            (0x80 + c.toNat / 64 % 64 - 0x80) * 64 + (0x80 + c.toNat / 1 % 64 - 0x80) =
              c.toNat by omega, self]
          rfl
      · rename_i _ _ ge
        have a := toNat_ofNat (n := 0xF0 + c.toNat / 262144) (by omega)
        have b := toNat_ofNat (n := 0x80 + c.toNat / 4096 % 64) (by omega)
        have d := toNat_ofNat (n := 0x80 + c.toNat / 64 % 64) (by omega)
        have e := toNat_ofNat (n := 0x80 + c.toNat / 1 % 64) (by omega)
        refine ⟨index + 4, (decodeFrom_four ?_ ?_ ?_ ?_).trans ?_⟩
        · rw [width_eq, a, if_neg (by omega), if_neg (by omega), if_neg (by omega),
            if_neg (by omega), if_pos (by omega)]
        · rw [mayFollow_iff, a, b]
          omega
        · rw [isTail_iff, d]
          omega
        · rw [isTail_iff, e]
          omega
        · unfold tailBits
          rw [a, b, d, e, show (0xF0 + c.toNat / 262144 - 0xF0) * 262144 +
            (0x80 + c.toNat / 4096 % 64 - 0x80) * 4096 + (0x80 + c.toNat / 64 % 64 - 0x80) * 64 +
              (0x80 + c.toNat / 1 % 64 - 0x80) = c.toNat by omega, self]
          rfl

/-- The bytes of a text are read as the text, wherever they begin. -/
theorem decodeFrom_encode (text : List Char) (index : Nat) :
    decodeFrom index (encode text) = .ok text := by
  induction text generalizing index with
  | nil => rfl
  | cons c rest ih =>
      obtain ⟨next, read⟩ := decodeFrom_encodeChar c index (encode rest)
      rw [show encode (c :: rest) = encodeChar c ++ encode rest from rfl, read, ih next]
      rfl

/-- A text is read back from its bytes. -/
theorem decode_encode (text : List Char) : decode (encode text) = .ok (String.ofList text) := by
  unfold decode
  rw [decodeFrom_encode]
  rfl

end TaintFlow.Text.Utf8
