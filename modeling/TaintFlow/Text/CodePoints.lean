/-!
# Code points

A text is a row of code points.  Nearly all of them are characters, but an escape may
also write one half of a pair that stands for a character beyond the basic plane, and a half
may stay alone.  A half that stands alone is held as a character of its own, near the end of
the last private plane, so that every operation on texts takes it for the one code point
that it is; `codeOf` and `charOf` go from characters to code points and back.
-/

namespace TaintFlow.Text

/-- Is the code point the first half of a character? -/
def isFirstHalf (code : Nat) : Bool := 0xD800 ≤ code && code < 0xDC00

/-- Is the code point the second half of a character? -/
def isSecondHalf (code : Nat) : Bool := 0xDC00 ≤ code && code < 0xE000

/-- The code point of the character of two halves. -/
def joined (first second : Nat) : Nat := 0x10000 + (first - 0xD800) * 0x400 + (second - 0xDC00)

/-- How far a half lies below the character that holds it. -/
def halfShift : Nat := 0x100000

/-- The character that holds a code point. -/
def charOf (code : Nat) : Char :=
  if isFirstHalf code || isSecondHalf code then Char.ofNat (code + halfShift) else Char.ofNat code

/-- Does the character hold a half? -/
def isHalf (c : Char) : Bool := 0xD800 + halfShift ≤ c.toNat && c.toNat < 0xE000 + halfShift

/-- The code point that a character holds. -/
def codeOf (c : Char) : Nat := if isHalf c then c.toNat - halfShift else c.toNat

/-- Does a text hold a half? -/
def hasHalf (text : List Char) : Bool := text.any isHalf

/-- A half is held by a character that gives it back. -/
theorem codeOf_charOf_half (code : Nat) (low : 0xD800 ≤ code) (high : code < 0xE000) :
    codeOf (charOf code) = code := by
  have half : (isFirstHalf code || isSecondHalf code) = true := by
    simp only [isFirstHalf, isSecondHalf, Bool.or_eq_true, Bool.and_eq_true, decide_eq_true_eq]
    omega
  have value : (Char.ofNat (code + halfShift)).toNat = code + halfShift := by
    have valid : (code + halfShift).isValidChar := by
      simp only [Nat.isValidChar, halfShift]
      omega
    rw [Char.ofNat, dif_pos valid]
    rfl
  have held : isHalf (Char.ofNat (code + halfShift)) = true := by
    simp only [isHalf, value, Bool.and_eq_true, decide_eq_true_eq]
    omega
  simp only [charOf, half, if_true, codeOf, held, value, Nat.add_sub_cancel]

end TaintFlow.Text
