/-!
# Blank characters and decimal digits

Text that is read as a number may be surrounded by blanks and may use the
decimal digits of any script.  The separators of the control block are no
blanks.
-/

namespace TaintFlow.Text

/-- The code points of the blank characters. -/
def blankCodes : List Nat :=
  [0x9, 0xA, 0xB, 0xC, 0xD, 0x20, 0x85, 0xA0, 0x1680,
   0x2000, 0x2001, 0x2002, 0x2003, 0x2004, 0x2005, 0x2006, 0x2007, 0x2008, 0x2009, 0x200A,
   0x2028, 0x2029, 0x202F, 0x205F, 0x3000]

/-- Is the character blank? -/
def isBlank (c : Char) : Bool := blankCodes.contains c.toNat

/-- Every blank of the ASCII block is blank here. -/
theorem isBlank_of_isWhitespace {c : Char} (h : c.isWhitespace = true) : isBlank c = true := by
  have cases : c = ' ' ∨ c = '\t' ∨ c = '\r' ∨ c = '\n' := by
    simpa [Char.isWhitespace, or_assoc] using h
  rcases cases with rfl | rfl | rfl | rfl <;> decide

/-- Is the character a blank of the ASCII block? -/
def isAsciiBlank (c : Char) : Bool := isBlank c && c.toNat < 0x80

/-- Drop the characters of a class at both ends. -/
def stripOf (drops : Char → Bool) (text : List Char) : List Char :=
  ((text.dropWhile drops).reverse.dropWhile drops).reverse

/-- Drop the blanks at both ends. -/
def strip (text : List Char) : List Char := stripOf isBlank text

/-- The code points of the digit zero in each script that has decimal digits. -/
def zeroCodes : List Nat :=
  [
   0x30, 0x660, 0x6F0, 0x7C0, 0x966, 0x9E6, 0xA66, 0xAE6, 0xB66, 0xBE6,
   0xC66, 0xCE6, 0xD66, 0xDE6, 0xE50, 0xED0, 0xF20, 0x1040, 0x1090, 0x17E0,
   0x1810, 0x1946, 0x19D0, 0x1A80, 0x1A90, 0x1B50, 0x1BB0, 0x1C40, 0x1C50, 0xA620,
   0xA8D0, 0xA900, 0xA9D0, 0xA9F0, 0xAA50, 0xABF0, 0xFF10, 0x104A0, 0x10D30, 0x11066,
   0x110F0, 0x11136, 0x111D0, 0x112F0, 0x11450, 0x114D0, 0x11650, 0x116C0, 0x11730, 0x118E0,
   0x11950, 0x11C50, 0x11D50, 0x11DA0, 0x16A60, 0x16AC0, 0x16B50, 0x1D7CE, 0x1D7D8, 0x1D7E2,
   0x1D7EC, 0x1D7F6, 0x1E140, 0x1E2F0, 0x1E950, 0x1FBF0]

/-- The decimal digit of another script as one of `0` to `9`; other characters stay. -/
def plainDigit (c : Char) : Char :=
  let n := c.toNat
  if n < 0x80 then c
  else
    match zeroCodes.find? fun start => start ≤ n && n < start + 10 with
    | some start => Char.ofNat (n - start + '0'.toNat)
    | none => c

end TaintFlow.Text
