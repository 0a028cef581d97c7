import TaintFlow.Mishap
import TaintFlow.Text.CodePoints
import TaintFlow.Text.Quoted

/-!
# UTF-8

Characters as bytes and back.  The reader refuses whatever the writer does not
produce, and says where and how: a sequence that is cut off by the end, or one
that no following byte could complete.
-/

namespace TaintFlow.Text.Utf8

/-- The bytes of one character. -/
def encodeChar (c : Char) : List UInt8 :=
  let n := c.toNat
  let tail (shift : Nat) : UInt8 := UInt8.ofNat (0x80 + n / shift % 64)
  if n < 0x80 then [UInt8.ofNat n]
  else if n < 0x800 then [UInt8.ofNat (0xC0 + n / 64), tail 1]
  else if n < 0x10000 then [UInt8.ofNat (0xE0 + n / 4096), tail 64, tail 1]
  else [UInt8.ofNat (0xF0 + n / 262144), tail 4096, tail 64, tail 1]

/-- The bytes of a text. -/
def encode (text : List Char) : List UInt8 := text.flatMap encodeChar

/-- The mishap of writing a text in which halves stand alone: the first row of them. -/
def unencoded (text : List Char) : Mishap :=
  let start := (text.takeWhile fun c => !isHalf c).length
  let what := match (text.drop start).takeWhile isHalf with
    | [c] =>
      let digits := String.ofList (hexPadded 4 (codeOf c))
      s!"character '\\u{digits}' in position {start}"
    | halves => s!"characters in position {start}-{start + halves.length - 1}"
  ⟨"UnicodeEncodeError", s!"'utf-8' codec can't encode {what}: surrogates not allowed"⟩

/-- The bytes of a text, if no half stands alone in it. -/
def encodeWhole (text : List Char) : Except Mishap (List UInt8) :=
  if hasHalf text then .error (unencoded text) else .ok (encode text)

/-- Why bytes are not UTF-8: from `index` on, `length` bytes begin no character, or the
bytes end inside one. -/
inductive Fault where
  | invalid (length index : Nat)
  | incomplete (index : Nat)
  deriving DecidableEq

/-- The first byte that does not belong to a character. -/
def Fault.index : Fault → Nat
  | .invalid _ index => index
  | .incomplete index => index

/-- Is the byte one that continues a character? -/
def isTail (b : UInt8) : Bool := 0x80 ≤ b && b < 0xC0

/-- The number of bytes of a character, by its first byte; zero if none begins so. -/
def width (b : UInt8) : Nat :=
  if b < 0x80 then 1
  else if b < 0xC2 then 0
  else if b < 0xE0 then 2
  else if b < 0xF0 then 3
  else if b < 0xF5 then 4
  else 0

/-- May `b` stand second after `first`?  This keeps out long forms, surrogates and code
points past the last. -/
def mayFollow (first b : UInt8) : Bool :=
  if first = 0xE0 then 0xA0 ≤ b && b < 0xC0
  else if first = 0xED then 0x80 ≤ b && b < 0xA0
  else if first = 0xF0 then 0x90 ≤ b && b < 0xC0
  else if first = 0xF4 then 0x80 ≤ b && b < 0x90
  else isTail b

/-- The payload bits of a byte that continues a character. -/
def tailBits (b : UInt8) : Nat := b.toNat - 0x80

/-- Read the characters of `bytes`, the first of which stands at `index`. -/
def decodeFrom (index : Nat) : List UInt8 → Except Fault (List Char)
  | [] => .ok []
  | a :: rest =>
    match width a with
    | 1 => (decodeFrom (index + 1) rest).map (Char.ofNat a.toNat :: ·)
    | 2 =>
      match rest with
      | [] => .error (.incomplete index)
      | b :: rest =>
        if isTail b then
          (decodeFrom (index + 2) rest).map
            (Char.ofNat ((a.toNat - 0xC0) * 64 + tailBits b) :: ·)
        else .error (.invalid 1 index)
    | 3 =>
      match rest with
      | [] => .error (.incomplete index)
      | b :: rest =>
        if mayFollow a b then
          match rest with
          | [] => .error (.incomplete index)
          | c :: rest =>
            if isTail c then
              (decodeFrom (index + 3) rest).map
                (Char.ofNat ((a.toNat - 0xE0) * 4096 + tailBits b * 64 + tailBits c) :: ·)
            else .error (.invalid 2 index)
        else .error (.invalid 1 index)
    | 4 =>
      match rest with
      | [] => .error (.incomplete index)
      | b :: rest =>
        if mayFollow a b then
          match rest with
          | [] => .error (.incomplete index)
          | c :: rest =>
            if isTail c then
              match rest with
              | [] => .error (.incomplete index)
              | d :: rest =>
                if isTail d then
                  (decodeFrom (index + 4) rest).map
                    (Char.ofNat ((a.toNat - 0xF0) * 262144 + tailBits b * 4096 +
                      tailBits c * 64 + tailBits d) :: ·)
                else .error (.invalid 3 index)
            else .error (.invalid 2 index)
        else .error (.invalid 1 index)
    | _ => .error (.invalid 1 index)

/-- Read bytes as text. -/
def decode (bytes : List UInt8) : Except Fault String :=
  (decodeFrom 0 bytes).map String.ofList

/-- The text that the bytes are, if they are one. -/
def decode? (bytes : List UInt8) : Option String :=
  match decode bytes with
  | .ok text => some text
  | .error _ => none

end TaintFlow.Text.Utf8
