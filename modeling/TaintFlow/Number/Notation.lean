import TaintFlow.Number.Binary64

/-!
# Writing doubles

A written double is a row of significant digits with a point placed in it.
`Digits` is that row, `FloatForm` says how many digits are asked for, and
`FloatStyle` collects the decisions of one output format: where positional
notation ends, whether a whole number keeps `.0`, and how the special values
are spelled.
-/

namespace TaintFlow.Number

/-!
## The shortest decimal of a double

Among the decimals that read back as a given double, the one with the fewest
digits, and of those the nearest.  On the grid of `n` significant digits only
the two neighbours of the number can be nearest, so these are all that is
tried; a grid with no hit gives way to the next finer one.
-/

/-- A positive decimal: `digits · 10^exponent`. -/
structure Decimal where
  digits : Nat
  exponent : Int
  deriving DecidableEq

/-- The place `p` with `10^(p-1) ≤ num / den < 10^p`. -/
def leadingPlace (num den : Nat) : Int :=
  let guess : Int := (decimalLength num : Int) - (decimalLength den : Int)
  let (a, b) := scaleTen num den (-guess)
  if a < b then guess else guess + 1

/-- The decimals with `places` digits or fewer that enclose `num / den`, nearest first. -/
def neighbours (num den : Nat) (places : Nat) : List Decimal :=
  let exponent := leadingPlace num den - places
  let (a, b) := scaleTen num den (-exponent)
  let low : Decimal := ⟨a / b, exponent⟩
  let high : Decimal := ⟨a / b + 1, exponent⟩
  let twice := 2 * (a % b)
  if twice < b ∨ (twice = b ∧ low.digits % 2 = 0) then [low, high] else [high, low]

namespace FiniteDouble

/-- Does the decimal read back as the magnitude of this double? -/
def readsBack (x : FiniteDouble) (d : Decimal) : Bool :=
  Binary64.ofDecimal false d.digits d.exponent = .finite x.abs

/-- The exact decimal of the magnitude: a double is a whole multiple of a power of ten. -/
def exactDecimal (x : FiniteDouble) : Decimal :=
  if 0 ≤ x.exponent then ⟨x.mantissa * Nat.pow 2 x.exponent.toNat, 0⟩
  else ⟨x.mantissa * Nat.pow 5 (-x.exponent).toNat, x.exponent⟩

/-- The shortest decimal that reads back as the magnitude; of several the nearest. -/
def shortest (x : FiniteDouble) : Decimal :=
  if x.mantissa = 0 then ⟨0, 0⟩
  else
    let (num, den) := x.ratio
    match (List.range 17).findSome? fun n =>
        (neighbours num den (n + 1)).find? x.readsBack with
    | some d => d
    | none => x.exactDecimal

end FiniteDouble

/-! ## Rows of digits -/

/-- Significant digits `d₁d₂…` standing for `0.d₁d₂… · 10^point`. -/
structure Digits where
  digits : List Char
  point : Int

namespace Digits

/-- Drop the zeros that end a row of digits. -/
def trimZeros (digits : List Char) : List Char :=
  (digits.reverse.dropWhile (· = '0')).reverse

/-- The digits of a decimal, without zeros at the end. -/
def ofDecimal (d : Decimal) : Digits :=
  let row := Nat.toDigits 10 d.digits
  ⟨trimZeros row, row.length + d.exponent⟩

/-- The digits at the positions from `start` up to `stop`, zero outside the row. -/
def slice (d : Digits) (start stop : Int) : List Char :=
  let before := List.replicate (min 0 stop - start).toNat '0'
  let inside := (d.digits.take stop.toNat).drop start.toNat
  let after := List.replicate (stop - max start d.digits.length).toNat '0'
  before ++ inside ++ after

end Digits

/-- How many digits of a number are written. -/
inductive FloatForm where
  /-- As few as read back. -/
  | shortest
  /-- A fixed number of places after the point. -/
  | fixed (places : Nat)
  /-- One digit, a number of places, and an exponent. -/
  | scientific (places : Nat)
  /-- A number of significant digits, with an exponent where that is shorter. -/
  | general (digits : Nat)
  deriving DecidableEq

/-- The decisions of one way to write doubles. -/
structure FloatStyle where
  form : FloatForm := .shortest
  /-- Whole numbers keep `.0`. -/
  keepZero : Bool := true
  /-- The point stays even if nothing follows it, and so do zeros at the end. -/
  keepPoint : Bool := false
  /-- The letter before an exponent. -/
  mark : Char := 'e'
  infinityText : String := "inf"
  nanText : String := "nan"

/-- The default text of a double: the shortest digits, positional from `1e-4` up to
`1e16`, a two-digit signed exponent outside. -/
def FloatStyle.plain : FloatStyle := {}

namespace FloatForm

/-- A double rounded to a number of places after the point.  It has no digits behind as many
places as its denominator has binary digits, so no more are ever computed. -/
def rounded (x : FiniteDouble) (places : Int) : Decimal :=
  let (num, den) := x.ratio
  let places := min places (Nat.log2 den : Int)
  let (a, b) := scaleTen num den places
  ⟨roundQuotient a b, -places⟩

/-- The digits that a form asks of a double. -/
def digitsOf (form : FloatForm) (x : FiniteDouble) : Digits :=
  let significant (count : Nat) : Digits :=
    .ofDecimal (rounded x (count - leadingPlace x.ratio.1 x.ratio.2))
  if x.isZero then ⟨['0'], 1⟩
  else
    match form with
    | .shortest => .ofDecimal x.shortest
    | .fixed places =>
      let d := rounded x places
      if d.digits = 0 then ⟨[], d.exponent⟩ else .ofDecimal d
    | .scientific places => significant (places + 1)
    | .general count => significant (max count 1)

end FloatForm

/-- The exponent of scientific notation: a sign and at least two digits. -/
def exponentText (mark : Char) (e : Int) : List Char :=
  let row := Nat.toDigits 10 e.natAbs
  mark :: (if e < 0 then '-' else '+') :: (if row.length < 2 then '0' :: row else row)

namespace FloatStyle

/-- Is a number with its point at `point` written with an exponent? -/
def usesExponent (style : FloatStyle) (point : Int) : Bool :=
  match style.form with
  | .shortest => point ≤ -4 ∨ 16 < point
  | .fixed _ => false
  | .scientific _ => true
  | .general count =>
    point ≤ -4 ∨ (max count 1 : Int) - (if style.keepZero then 1 else 0) < point

/-- The text of a magnitude. -/
def magnitude (style : FloatStyle) (x : FiniteDouble) : List Char :=
  let d := style.form.digitsOf x
  let useExponent := style.usesExponent d.point
  let point := if useExponent then 1 else d.point
  let wanted : Int :=
    match style.form with
    | .shortest => d.digits.length
    | .fixed places => point + places
    | .scientific places => places + 1
    | .general count => if style.keepPoint then (max count 1 : Int) else d.digits.length
  let least := if style.keepZero && !useExponent then point + 1 else point
  let stop := max wanted least
  let row : Digits := ⟨d.digits, point⟩
  let whole := row.slice (min (point - 1) 0) point
  let places := row.slice point stop
  let pointed :=
    if places.isEmpty && !style.keepPoint then whole else whole ++ '.' :: places
  if useExponent then pointed ++ exponentText style.mark (d.point - 1) else pointed

/-- The text of the magnitude of any double. -/
def unsigned (style : FloatStyle) : Binary64 → List Char
  | .finite x => style.magnitude x
  | .infinite _ => style.infinityText.toList
  | .nan _ => style.nanText.toList

/-- The text of a double. -/
def write (style : FloatStyle) (x : Binary64) : List Char :=
  if x.isNegative then '-' :: style.unsigned x else style.unsigned x

end FloatStyle

/-- The text of a double in a given style. -/
def Binary64.text (x : Binary64) (style : FloatStyle := .plain) : String :=
  String.ofList (style.write x)

end TaintFlow.Number
