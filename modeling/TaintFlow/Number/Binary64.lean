/-!
# Double-precision numbers

A double is a sign, a whole mantissa and a power of two, kept in the one form
that each number has, so that two finite doubles are equal exactly when all
three fields are.  All arithmetic here is exact on whole numbers; nothing is
left to the machine's floating-point unit.
-/

namespace TaintFlow.Number

/-!
## Rounding a quotient

The nearest whole number to a quotient of natural numbers, a tie going to the
even neighbour.  Every conversion between decimal text and binary numbers in
this library rounds through this one function.
-/

/-- The whole number nearest to `num / den`; a tie goes to the even neighbour. -/
def roundQuotient (num den : Nat) : Nat :=
  let quotient := num / den
  let twice := 2 * (num % den)
  if twice < den then quotient
  else if den < twice then quotient + 1
  else if quotient % 2 = 0 then quotient
  else quotient + 1

/-- A whole quotient is its own rounding. -/
theorem roundQuotient_mul_right (q den : Nat) (h : 0 < den) :
    roundQuotient (q * den) den = q := by
  simp [roundQuotient, Nat.mul_div_cancel _ h, h]

/-- Rounding never moves below the floor nor above its successor. -/
theorem roundQuotient_bounds (num den : Nat) :
    num / den ≤ roundQuotient num den ∧ roundQuotient num den ≤ num / den + 1 := by
  simp only [roundQuotient]
  split
  · omega
  · split
    · omega
    · split <;> omega

/-- The number of decimal digits of `n`; zero has one. -/
def decimalLength (n : Nat) : Nat := (Nat.toDigits 10 n).length

/-- `num · 2^e / den` as a quotient of natural numbers. -/
def scaleTwo (num den : Nat) (e : Int) : Nat × Nat :=
  (num * Nat.pow 2 e.toNat, den * Nat.pow 2 (-e).toNat)

/-- `num · 10^e / den` as a quotient of natural numbers. -/
def scaleTen (num den : Nat) (e : Int) : Nat × Nat :=
  (num * Nat.pow 10 e.toNat, den * Nat.pow 10 (-e).toNat)

/-! ## Doubles -/

/-- The canonical form of a finite double. -/
def CanonicalDouble (mantissa : Nat) (exponent : Int) : Prop :=
  mantissa < Nat.pow 2 53 ∧ -1074 ≤ exponent ∧ exponent ≤ 971 ∧
    (Nat.pow 2 52 ≤ mantissa ∨ exponent = -1074)

instance (mantissa : Nat) (exponent : Int) : Decidable (CanonicalDouble mantissa exponent) :=
  inferInstanceAs (Decidable (_ ∧ _ ∧ _ ∧ _))

/-- A finite double: `± mantissa · 2^exponent`. -/
structure FiniteDouble where
  negative : Bool
  mantissa : Nat
  exponent : Int
  canonical : CanonicalDouble mantissa exponent
  deriving DecidableEq

/-- A double-precision number.  A value that is not a number has a mark, which tells it from
others of its kind and is never shown. -/
inductive Binary64 where
  | finite (x : FiniteDouble)
  | infinite (negative : Bool)
  | nan (mark : Nat := 0)
  deriving DecidableEq

namespace FiniteDouble

/-- The number over the common denominator `2^1074`. -/
def scaled (x : FiniteDouble) : Int :=
  let magnitude : Int := (x.mantissa * Nat.pow 2 (x.exponent + 1074).toNat : Nat)
  if x.negative then -magnitude else magnitude

/-- The magnitude as a quotient of natural numbers. -/
def ratio (x : FiniteDouble) : Nat × Nat := scaleTwo x.mantissa 1 x.exponent

/-- Is the number zero, of either sign? -/
def isZero (x : FiniteDouble) : Bool := x.mantissa = 0

/-- The whole number that the double is, if it is one. -/
def toInt? (x : FiniteDouble) : Option Int :=
  let (num, den) := x.ratio
  if num % den = 0 then
    some (if x.negative then -((num / den : Nat) : Int) else ((num / den : Nat) : Int))
  else none

/-- The same number with the sign dropped. -/
def abs (x : FiniteDouble) : FiniteDouble := { x with negative := false }

end FiniteDouble

namespace Binary64

/-- Zero of the given sign. -/
def zero (negative : Bool) : Binary64 :=
  .finite ⟨negative, 0, -1074, by decide⟩

instance : Inhabited Binary64 := ⟨zero false⟩

/-- The double with these fields; past the largest exponent it is infinite. -/
def ofFields (negative : Bool) (mantissa : Nat) (exponent : Int) : Binary64 :=
  if h : CanonicalDouble mantissa exponent then .finite ⟨negative, mantissa, exponent, h⟩
  else .infinite negative

/-- The power of two whose unit the double nearest to `num / den` is counted in. -/
def unitExponent (num den : Nat) : Int :=
  let guess : Int := (num.log2 : Int) - (den.log2 : Int)
  let (a, b) := scaleTwo num den (-guess)
  let top := if a < b then guess - 1 else guess
  max (top - 52) (-1074)

/-- The double nearest to `± num / den`; a tie goes to the even mantissa. -/
def ofQuotient (negative : Bool) (num den : Nat) : Binary64 :=
  if num = 0 then zero negative
  else
    let unit := unitExponent num den
    let (a, b) := scaleTwo num den (-unit)
    let mantissa := roundQuotient a b
    if mantissa = Nat.pow 2 53 then ofFields negative (Nat.pow 2 52) (unit + 1)
    else ofFields negative mantissa unit

/-- The double nearest to `± digits · 10^exponent`. -/
def ofDecimal (negative : Bool) (digits : Nat) (exponent : Int) : Binary64 :=
  let top : Int := decimalLength digits + exponent
  if digits = 0 then zero negative
  else if 400 < top then .infinite negative
  else if top < -400 then zero negative
  else
    let (num, den) := scaleTen digits 1 exponent
    ofQuotient negative num den

/-- The double nearest to a whole number. -/
def ofInt (n : Int) : Binary64 := ofQuotient (n < 0) n.natAbs 1

/-- The double nearest to a whole number, unless it is out of range. -/
def ofInt? (n : Int) : Option Binary64 :=
  match ofInt n with
  | .finite x => some (.finite x)
  | _ => none

/-- Is the sign bit set?  A value that is not a number has none. -/
def isNegative : Binary64 → Bool
  | .finite x => x.negative
  | .infinite negative => negative
  | .nan _ => false

/-- Is the value a number other than an infinity? -/
def isFinite : Binary64 → Bool
  | .finite _ => true
  | _ => false

/-- Numeric equality: the zeros are equal, and `nan` differs from itself. -/
def same : Binary64 → Binary64 → Bool
  | .finite x, .finite y => x.scaled == y.scaled
  | .infinite a, .infinite b => a == b
  | _, _ => false

/-- Numeric order; `nan` is below and above nothing. -/
def less : Binary64 → Binary64 → Bool
  | .finite x, .finite y => x.scaled < y.scaled
  | .finite _, .infinite negative => !negative
  | .infinite negative, .finite _ => negative
  | .infinite a, .infinite b => a && !b
  | _, _ => false

/-- Does the double equal a whole number? -/
def sameInt (x : Binary64) (n : Int) : Bool :=
  match x with
  | .finite x => x.scaled == n * (Nat.pow 2 1074 : Nat)
  | _ => false

/-- Is the number above zero? -/
def isPositive (x : Binary64) : Bool := (zero false).less x

/-- Is the number at least `n`? -/
def atLeast (x : Binary64) (n : Int) : Bool := (ofInt n).less x || x.sameInt n

/-- The product with a whole number, rounded once. -/
def mulNat (x : Binary64) (k : Nat) : Binary64 :=
  match x with
  | .finite x =>
    let (num, den) := x.ratio
    ofQuotient x.negative (num * k) den
  | other => other

/-- The same number with the sign dropped. -/
def abs : Binary64 → Binary64
  | .finite x => .finite x.abs
  | .infinite _ => .infinite false
  | .nan mark => .nan mark

end Binary64

end TaintFlow.Number

/-!
## Sums and products of doubles

A sum or a product is the double nearest to the exact result.
-/

namespace TaintFlow.Number.Binary64

/-- The number with its sign turned. -/
def neg : Binary64 → Binary64
  | .finite x => .finite { x with negative := !x.negative }
  | .infinite negative => .infinite !negative
  | .nan mark => .nan mark

/-- The sum. -/
def add : Binary64 → Binary64 → Binary64
  | .nan _, _ | _, .nan _ => .nan
  | .infinite a, .infinite b => if a == b then .infinite a else .nan
  | .infinite a, _ | _, .infinite a => .infinite a
  | .finite x, .finite y =>
    let sum := x.scaled + y.scaled
    if sum = 0 then zero (x.negative && y.negative)
    else ofQuotient (sum < 0) sum.natAbs (Nat.pow 2 1074)

/-- The product. -/
def mul : Binary64 → Binary64 → Binary64
  | .nan _, _ | _, .nan _ => .nan
  | .finite x, .finite y =>
    let (a, b) := x.ratio
    let (c, d) := y.ratio
    ofQuotient (x.negative != y.negative) (a * c) (b * d)
  | x, y =>
    let isZero (z : Binary64) : Bool := z.same (zero false)
    if isZero x || isZero y then .nan else .infinite (x.isNegative != y.isNegative)

end TaintFlow.Number.Binary64
