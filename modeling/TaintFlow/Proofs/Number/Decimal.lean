import Mathlib.Algebra.Order.Field.Power
import Mathlib.Data.Int.Log
import Mathlib.Data.Rat.Floor
import Mathlib.Tactic.FieldSimp
import Mathlib.Tactic.NormNum
import Mathlib.Tactic.Positivity
import Mathlib.Tactic.Ring
import TaintFlow.Number.Binary64
import TaintFlow.Number.Notation

/-!
# Doubles that decimals are read as

Which double a decimal is read as depends on the number that the decimal is.  The
shortest decimal of a double is read as the double: each decimal that is tried
is read back first, and the one that is left when none is found is exact.
-/

namespace TaintFlow.Number

/-!
## Doubles nearest to quotients

Which double is nearest to a quotient depends on the number that the quotient
is, and not on how it is written.  A double that is the quotient is nearest to
it.
-/

/-! ### Scaled quotients -/

/-- A power is the quotient of one whose exponent is positive and one whose exponent is negative. -/
theorem pow_toNat_div_pow_toNat {base : ℚ} (some_ : base ≠ 0) (e : Int) :
    base ^ e.toNat / base ^ (-e).toNat = base ^ e := by
  have parts : (e.toNat : Int) - ((-e).toNat : Int) = e := by omega
  rw [← zpow_natCast, ← zpow_natCast, ← zpow_sub₀ some_, parts]

theorem scaleTwo_ratio (num den : Nat) (e : Int) :
    ((scaleTwo num den e).1 : ℚ) / ((scaleTwo num den e).2 : ℚ) = num / den * 2 ^ e := by
  rw [← pow_toNat_div_pow_toNat (by norm_num : (2 : ℚ) ≠ 0) e]
  unfold scaleTwo
  rw [div_mul_div_comm]
  norm_cast

theorem scaleTen_ratio (num den : Nat) (e : Int) :
    ((scaleTen num den e).1 : ℚ) / ((scaleTen num den e).2 : ℚ) = num / den * 10 ^ e := by
  rw [← pow_toNat_div_pow_toNat (by norm_num : (10 : ℚ) ≠ 0) e]
  unfold scaleTen
  rw [div_mul_div_comm]
  norm_cast

theorem scaleTwo_pos (num : Nat) {den : Nat} (e : Int) (den_pos : 0 < den) : 0 < (scaleTwo num den e).2 :=
  Nat.mul_pos den_pos (Nat.pow_pos (by decide))

theorem scaleTen_pos (num : Nat) {den : Nat} (e : Int) (den_pos : 0 < den) : 0 < (scaleTen num den e).2 :=
  Nat.mul_pos den_pos (Nat.pow_pos (by decide))

/-! ### Rounding -/

theorem roundQuotient_mul_left {k : Nat} (num den : Nat) (some_ : 0 < k) :
    roundQuotient (k * num) (k * den) = roundQuotient num den := by
  have floor : k * num / (k * den) = num / den := Nat.mul_div_mul_left num den some_
  have rest : k * num % (k * den) = k * (num % den) := Nat.mul_mod_mul_left k num den
  have twice : 2 * (k * (num % den)) = k * (2 * (num % den)) := by ring
  simp only [roundQuotient, floor, rest, twice, Nat.mul_lt_mul_left some_]

/-- What a quotient is rounded to depends on the number that it is. -/
theorem roundQuotient_congr {a b c d : Nat} (b_pos : 0 < b) (d_pos : 0 < d)
    (same : (a : ℚ) / b = c / d) : roundQuotient a b = roundQuotient c d := by
  have cross : d * a = b * c := by
    rw [div_eq_div_iff (by positivity) (by positivity)] at same
    have whole : a * d = c * b := by exact_mod_cast same
    rw [Nat.mul_comm d, whole, Nat.mul_comm]
  rw [← roundQuotient_mul_left a b d_pos, ← roundQuotient_mul_left c d b_pos, cross,
    Nat.mul_comm d b]

namespace Binary64

/-! ### The unit -/

/-- The power of two that a quotient reaches, from the lengths of its parts. -/
theorem log_ratio {num den : Nat} (num_pos : 0 < num) (den_pos : 0 < den) :
    Int.log 2 ((num : ℚ) / den) = (num.log2 : Int) - den.log2 ∨
      Int.log 2 ((num : ℚ) / den) = (num.log2 : Int) - den.log2 - 1 := by
  have positive : (0 : ℚ) < num / den := by positivity
  have num_least : (2 : ℚ) ^ num.log2 ≤ num := by
    exact_mod_cast Nat.log2_self_le num_pos.ne'
  have num_most : (num : ℚ) < 2 ^ (num.log2 + 1) := by exact_mod_cast Nat.lt_log2_self
  have den_least : (2 : ℚ) ^ den.log2 ≤ den := by
    exact_mod_cast Nat.log2_self_le den_pos.ne'
  have den_most : (den : ℚ) < 2 ^ (den.log2 + 1) := by exact_mod_cast Nat.lt_log2_self
  have least : (num.log2 : Int) - den.log2 - 1 ≤ Int.log 2 ((num : ℚ) / den) := by
    rw [← Int.zpow_le_iff_le_log (by decide) positive, le_div_iff₀ (by positivity)]
    have split : ((2 : Nat) : ℚ) ^ ((num.log2 : Int) - den.log2 - 1) * 2 ^ (den.log2 + 1) =
        2 ^ num.log2 := by
      rw [← zpow_natCast, ← zpow_natCast, Nat.cast_ofNat, ← zpow_add₀ (by norm_num)]
      congr 1
      push_cast
      ring
    calc ((2 : Nat) : ℚ) ^ ((num.log2 : Int) - den.log2 - 1) * den
        ≤ ((2 : Nat) : ℚ) ^ ((num.log2 : Int) - den.log2 - 1) * 2 ^ (den.log2 + 1) := by gcongr
      _ = 2 ^ num.log2 := split
      _ ≤ num := num_least
  have most : Int.log 2 ((num : ℚ) / den) < (num.log2 : Int) - den.log2 + 1 := by
    rw [← Int.lt_zpow_iff_log_lt (by decide) positive, div_lt_iff₀ (by positivity)]
    have split : ((2 : Nat) : ℚ) ^ ((num.log2 : Int) - den.log2 + 1) * 2 ^ den.log2 =
        2 ^ (num.log2 + 1) := by
      rw [← zpow_natCast, ← zpow_natCast, Nat.cast_ofNat, ← zpow_add₀ (by norm_num)]
      congr 1
      push_cast
      ring
    calc (num : ℚ) < 2 ^ (num.log2 + 1) := num_most
      _ = ((2 : Nat) : ℚ) ^ ((num.log2 : Int) - den.log2 + 1) * 2 ^ den.log2 := split.symm
      _ ≤ ((2 : Nat) : ℚ) ^ ((num.log2 : Int) - den.log2 + 1) * den := by gcongr
  omega

/-- The unit is fifty-two places below the power of two that the quotient reaches, but for the
smallest numbers. -/
theorem unitExponent_eq {num den : Nat} (num_pos : 0 < num) (den_pos : 0 < den) :
    unitExponent num den = max (Int.log 2 ((num : ℚ) / den) - 52) (-1074) := by
  have positive : (0 : ℚ) < num / den := by positivity
  have scaled := scaleTwo_ratio num den (-((num.log2 : Int) - den.log2))
  have scaled_pos : 0 < (scaleTwo num den (-((num.log2 : Int) - den.log2))).2 :=
    scaleTwo_pos _ _ den_pos
  -- The first guess is one too high exactly if the quotient does not reach it.
  have reaches : (scaleTwo num den (-((num.log2 : Int) - den.log2))).1 <
      (scaleTwo num den (-((num.log2 : Int) - den.log2))).2 ↔
        Int.log 2 ((num : ℚ) / den) < (num.log2 : Int) - den.log2 := by
    have one : (num : ℚ) / den < 2 ^ ((num.log2 : Int) - den.log2) ↔
        (num : ℚ) / den * 2 ^ (-((num.log2 : Int) - den.log2)) < 1 := by
      rw [zpow_neg, ← div_eq_mul_inv, div_lt_one (by positivity)]
    rw [← Int.lt_zpow_iff_log_lt (by decide) positive, Nat.cast_ofNat, one, ← scaled,
      div_lt_one (by exact_mod_cast scaled_pos), Nat.cast_lt]
  have near := log_ratio num_pos den_pos
  unfold unitExponent
  dsimp only
  split
  · rename_i below
    have := reaches.mp below
    rw [show (num.log2 : Int) - den.log2 - 1 = Int.log 2 ((num : ℚ) / den) by omega]
  · rename_i notBelow
    have := mt reaches.mpr notBelow
    rw [show (num.log2 : Int) - den.log2 = Int.log 2 ((num : ℚ) / den) by omega]

/-! ### The nearest double -/

/-- Which double is nearest to a quotient depends on the number that the quotient is. -/
theorem ofQuotient_congr (negative : Bool) {a b c d : Nat} (b_pos : 0 < b) (d_pos : 0 < d)
    (same : (a : ℚ) / b = c / d) : ofQuotient negative a b = ofQuotient negative c d := by
  have zero_iff : a = 0 ↔ c = 0 := by
    have b_some : (b : ℚ) ≠ 0 := by positivity
    have d_some : (d : ℚ) ≠ 0 := by positivity
    have quotients : (a : ℚ) / b = 0 ↔ (c : ℚ) / d = 0 := by rw [same]
    simpa [div_eq_zero_iff, b_some, d_some, b_pos.ne', d_pos.ne'] using quotients
  by_cases none : a = 0
  · rw [ofQuotient, ofQuotient, if_pos none, if_pos (zero_iff.mp none)]
  have unit : unitExponent a b = unitExponent c d := by
    rw [unitExponent_eq (Nat.pos_of_ne_zero none) b_pos,
      unitExponent_eq (Nat.pos_of_ne_zero (mt zero_iff.mpr none)) d_pos, same]
  have rounded : roundQuotient (scaleTwo a b (-unitExponent c d)).1
      (scaleTwo a b (-unitExponent c d)).2 =
        roundQuotient (scaleTwo c d (-unitExponent c d)).1
          (scaleTwo c d (-unitExponent c d)).2 := by
    refine roundQuotient_congr (scaleTwo_pos _ _ b_pos) (scaleTwo_pos _ _ d_pos) ?_
    rw [scaleTwo_ratio, scaleTwo_ratio, same]
  rw [ofQuotient, ofQuotient, if_neg none, if_neg (mt zero_iff.mpr none), unit]
  dsimp only
  rw [rounded]

/-- The unit of a double that is not zero is its own exponent. -/
theorem unitExponent_of_canonical {x : FiniteDouble} {num den : Nat} (num_pos : 0 < num)
    (den_pos : 0 < den)
    (exact_ : (num : ℚ) / den = x.mantissa * 2 ^ x.exponent) :
    unitExponent num den = x.exponent := by
  have positive : (0 : ℚ) < num / den := by positivity
  obtain ⟨small, least, _, normal⟩ := x.canonical
  have below : Int.log 2 ((num : ℚ) / den) < 53 + x.exponent := by
    rw [← Int.lt_zpow_iff_log_lt (by decide) positive, exact_, Nat.cast_ofNat,
      zpow_add₀ (by norm_num)]
    have short : (x.mantissa : ℚ) < 2 ^ (53 : Int) := by exact_mod_cast small
    gcongr
  rw [unitExponent_eq num_pos den_pos]
  rcases normal with long | lowest
  · have above : 52 + x.exponent ≤ Int.log 2 ((num : ℚ) / den) := by
      rw [← Int.zpow_le_iff_le_log (by decide) positive, exact_, Nat.cast_ofNat,
        zpow_add₀ (by norm_num)]
      have tall : (2 : ℚ) ^ (52 : Int) ≤ x.mantissa := by exact_mod_cast long
      gcongr
    omega
  · omega

/-- A double is nearest to itself. -/
theorem ofQuotient_of_exact (x : FiniteDouble) {num den : Nat} (den_pos : 0 < den)
    (exact_ : (num : ℚ) / den = x.mantissa * 2 ^ x.exponent) :
    ofQuotient x.negative num den = .finite x := by
  obtain ⟨small, _, _, normal⟩ := x.canonical
  have den_some : (den : ℚ) ≠ 0 := by positivity
  have zero_iff : num = 0 ↔ x.mantissa = 0 := by
    have quotients : (num : ℚ) / den = 0 ↔ (x.mantissa : ℚ) * 2 ^ x.exponent = 0 := by rw [exact_]
    have power : (2 : ℚ) ^ x.exponent ≠ 0 := zpow_ne_zero _ (by norm_num)
    simpa [div_eq_zero_iff, den_some, den_pos.ne', power] using quotients
  by_cases none : x.mantissa = 0
  · have lowest : x.exponent = -1074 := by
      rcases normal with long | lowest
      · rw [none] at long
        exact absurd long (by decide)
      · exact lowest
    rw [ofQuotient, if_pos (zero_iff.mpr none)]
    obtain ⟨negative, mantissa, exponent, _⟩ := x
    obtain rfl : mantissa = 0 := none
    obtain rfl : exponent = -1074 := lowest
    rfl
  have num_pos : 0 < num := Nat.pos_of_ne_zero (mt zero_iff.mp none)
  have unit := unitExponent_of_canonical num_pos den_pos exact_
  have rounded : roundQuotient (scaleTwo num den (-x.exponent)).1
      (scaleTwo num den (-x.exponent)).2 = x.mantissa := by
    rw [roundQuotient_congr (c := x.mantissa * 1) (d := 1) (scaleTwo_pos _ _ den_pos) Nat.one_pos,
      roundQuotient_mul_right _ _ Nat.one_pos]
    rw [scaleTwo_ratio, exact_, mul_assoc, ← zpow_add₀ (by norm_num), add_neg_cancel, zpow_zero]
    simp
  rw [ofQuotient, if_neg num_pos.ne', unit]
  dsimp only
  rw [rounded, if_neg (Nat.ne_of_lt small), ofFields, dif_pos x.canonical]

end Binary64

/-! ## Doubles that decimals are read as -/

/-- The number that digits with an exponent are. -/
def decimalValue (digits : Nat) (exponent : Int) : ℚ := digits * 10 ^ exponent

theorem decimalValue_pos {digits : Nat} (some_ : digits ≠ 0) (exponent : Int) :
    0 < decimalValue digits exponent :=
  mul_pos (by exact_mod_cast Nat.pos_of_ne_zero some_) (zpow_pos (by norm_num) _)

theorem decimalValue_eq_zero (digits : Nat) (exponent : Int) :
    decimalValue digits exponent = 0 ↔ digits = 0 := by
  constructor
  · intro zero
    by_contra some_
    exact (decimalValue_pos some_ exponent).ne' zero
  · rintro rfl
    rw [decimalValue, Nat.cast_zero, zero_mul]

/-- The first digit of a decimal stands where its number does. -/
theorem log_decimalValue {digits : Nat} (some_ : digits ≠ 0) (exponent : Int) :
    Int.log 10 (decimalValue digits exponent) + 1 = decimalLength digits + exponent := by
  have positive := decimalValue_pos some_ exponent
  have place (t : Nat) : digits < Nat.pow 10 t ↔ (digits : ℚ) < (10 : ℚ) ^ (t : Int) := by
    rw [zpow_natCast]
    exact_mod_cast Iff.rfl
  have long : 0 < decimalLength digits := Nat.length_toDigits_pos
  have below : Int.log 10 (decimalValue digits exponent) < decimalLength digits + exponent := by
    rw [← Int.lt_zpow_iff_log_lt (by decide) positive, Nat.cast_ofNat, zpow_add₀ (by norm_num)]
    have short := (place _).mp ((Nat.length_toDigits_le_iff (by decide) long).mp (Nat.le_refl _))
    unfold decimalValue
    gcongr
  have above : decimalLength digits + exponent - 1 ≤ Int.log 10 (decimalValue digits exponent) := by
    have least : (10 : ℚ) ^ ((decimalLength digits : Int) - 1) ≤ digits := by
      by_cases one : decimalLength digits = 1
      · rw [one, Nat.cast_one, sub_self, zpow_zero]
        exact_mod_cast Nat.pos_of_ne_zero some_
      · have tall := mt (Nat.length_toDigits_le_iff (b := 10) (n := digits)
          (k := decimalLength digits - 1) (by decide) (by omega)).mpr (by
            show ¬ decimalLength digits ≤ decimalLength digits - 1
            omega)
        have cast : ((decimalLength digits - 1 : Nat) : Int) = (decimalLength digits : Int) - 1 := by
          omega
        rw [← cast]
        exact not_lt.mp (mt (place _).mpr tall)
    rw [← Int.zpow_le_iff_le_log (by decide) positive, Nat.cast_ofNat,
      show (decimalLength digits : Int) + exponent - 1 = ((decimalLength digits : Int) - 1) + exponent by
        omega, zpow_add₀ (by norm_num)]
    unfold decimalValue
    gcongr
  omega

namespace Binary64

/-- Which double is read depends on the number that a decimal is. -/
theorem ofDecimal_congr (negative : Bool) {digits digits' : Nat} {exponent exponent' : Int}
    (same : decimalValue digits exponent = decimalValue digits' exponent') :
    ofDecimal negative digits exponent = ofDecimal negative digits' exponent' := by
  have zero_iff : digits = 0 ↔ digits' = 0 := by
    rw [← decimalValue_eq_zero digits exponent, same, decimalValue_eq_zero]
  by_cases none : digits = 0
  · rw [ofDecimal, ofDecimal, if_pos none, if_pos (zero_iff.mp none)]
  have none' := mt zero_iff.mpr none
  have top : (decimalLength digits : Int) + exponent = decimalLength digits' + exponent' := by
    rw [← log_decimalValue none, ← log_decimalValue none', same]
  have quotient := ofQuotient_congr negative
    (scaleTen_pos digits exponent Nat.one_pos)
    (scaleTen_pos digits' exponent' Nat.one_pos)
    (by rw [scaleTen_ratio, scaleTen_ratio, Nat.cast_one, div_one, div_one]; exact same)
  rw [ofDecimal, ofDecimal, if_neg none, if_neg none', top]
  dsimp only
  rw [quotient]

/-- Doubles lie far between the exponents at which decimals are taken for zero or an infinity. -/
theorem two_pow_lt_ten_pow {few many : Nat} (near : few ≤ 3 * many) (some_ : 0 < many) :
    (2 : ℚ) ^ few < 10 ^ many := by
  calc (2 : ℚ) ^ few ≤ 2 ^ (3 * many) := pow_le_pow_right₀ (by norm_num) near
    _ = 8 ^ many := by rw [pow_mul]; norm_num
    _ < 10 ^ many := pow_lt_pow_left₀ (by norm_num) (by norm_num) some_.ne'

/-- A decimal that is exactly a double is read as the double. -/
theorem ofDecimal_of_exact (x : FiniteDouble) {digits : Nat} {exponent : Int}
    (exact_ : decimalValue digits exponent = x.mantissa * 2 ^ x.exponent) :
    ofDecimal x.negative digits exponent = .finite x := by
  obtain ⟨small, least, most, _⟩ := x.canonical
  have quotient := ofQuotient_of_exact x
    (scaleTen_pos digits exponent Nat.one_pos)
    (by rw [scaleTen_ratio, Nat.cast_one, div_one]; exact exact_)
  by_cases none : digits = 0
  · rw [ofDecimal, if_pos none, ← quotient, none, scaleTen, Nat.zero_mul, ofQuotient, if_pos rfl]
  have positive := decimalValue_pos none exponent
  have mantissa_pos : 1 ≤ x.mantissa := by
    rcases Nat.eq_zero_or_pos x.mantissa with zero | some_
    · rw [exact_, zero, Nat.cast_zero, zero_mul] at positive
      exact absurd positive (lt_irrefl _)
    · exact some_
  have below : Int.log 10 (decimalValue digits exponent) < 400 := by
    rw [← Int.lt_zpow_iff_log_lt (by decide) positive, exact_, Nat.cast_ofNat,
      show (400 : Int) = (400 : Nat) from rfl, zpow_natCast]
    have short : (x.mantissa : ℚ) < 2 ^ (53 : Int) := by exact_mod_cast small
    have power : (2 : ℚ) ^ x.exponent ≤ 2 ^ (971 : Int) := zpow_le_zpow_right₀ (by norm_num) most
    calc (x.mantissa : ℚ) * 2 ^ x.exponent ≤ x.mantissa * 2 ^ (971 : Int) := by gcongr
      _ < 2 ^ (53 : Int) * 2 ^ (971 : Int) := by gcongr
      _ = 2 ^ 1024 := by rw [← zpow_add₀ (by norm_num), ← zpow_natCast]; rfl
      _ < 10 ^ 400 := two_pow_lt_ten_pow (by decide) (by decide)
  have above : -400 ≤ Int.log 10 (decimalValue digits exponent) := by
    rw [← Int.zpow_le_iff_le_log (by decide) positive, exact_, Nat.cast_ofNat, zpow_neg,
      show (400 : Int) = (400 : Nat) from rfl, zpow_natCast]
    have some_ : (1 : ℚ) ≤ x.mantissa := by exact_mod_cast mantissa_pos
    have power : (2 : ℚ) ^ (-1074 : Int) ≤ 2 ^ x.exponent := zpow_le_zpow_right₀ (by norm_num) least
    calc ((10 : ℚ) ^ 400)⁻¹ ≤ (2 ^ 1074)⁻¹ :=
        inv_anti₀ (by positivity) (two_pow_lt_ten_pow (by decide) (by decide)).le
      _ = 1 * 2 ^ (-1074 : Int) := by
        rw [one_mul, zpow_neg, show (1074 : Int) = (1074 : Nat) from rfl, zpow_natCast]
      _ ≤ x.mantissa * 2 ^ x.exponent := by gcongr
  have top := log_decimalValue none exponent
  rw [ofDecimal, if_neg none, if_neg (by omega), if_neg (by omega)]
  exact quotient

/-! ## Signs -/

theorem ofFields_finite {mantissa : Nat} {exponent : Int} {x : FiniteDouble}
    (read : ofFields false mantissa exponent = .finite x) (negative : Bool) :
    ofFields negative mantissa exponent = .finite { x with negative } := by
  unfold ofFields at read ⊢
  split at read
  · rename_i canonical
    rw [dif_pos canonical]
    cases read
    rfl
  · cases read

theorem ofQuotient_finite {num den : Nat} {x : FiniteDouble}
    (read : ofQuotient false num den = .finite x) (negative : Bool) :
    ofQuotient negative num den = .finite { x with negative } := by
  unfold ofQuotient at read ⊢
  dsimp only at read ⊢
  split at read
  · rename_i none
    rw [if_pos none]
    cases read
    rfl
  rename_i some_
  rw [if_neg some_]
  split at read
  · rename_i carried
    rw [if_pos carried]
    exact ofFields_finite read negative
  · rename_i kept
    rw [if_neg kept]
    exact ofFields_finite read negative

/-- The sign of a decimal is the sign of the double that it is read as. -/
theorem ofDecimal_finite {digits : Nat} {exponent : Int} {x : FiniteDouble}
    (read : ofDecimal false digits exponent = .finite x) (negative : Bool) :
    ofDecimal negative digits exponent = .finite { x with negative } := by
  unfold ofDecimal at read ⊢
  dsimp only at read ⊢
  split at read
  · rename_i none
    rw [if_pos none]
    cases read
    rfl
  rename_i some_
  rw [if_neg some_]
  split at read
  · cases read
  rename_i near
  rw [if_neg near]
  split at read
  · rename_i tiny
    rw [if_pos tiny]
    cases read
    rfl
  · rename_i plain
    rw [if_neg plain]
    exact ofQuotient_finite read negative

end Binary64

namespace FiniteDouble

theorem value_exactDecimal (x : FiniteDouble) :
    decimalValue x.exactDecimal.digits x.exactDecimal.exponent = x.mantissa * 2 ^ x.exponent := by
  unfold exactDecimal decimalValue
  split
  · rename_i whole
    have power : (2 : ℚ) ^ x.exponent.toNat = 2 ^ x.exponent := by
      rw [← zpow_natCast, Int.toNat_of_nonneg whole]
    push_cast
    rw [← power]
    simp
  · rename_i fraction
    have power : (5 : ℚ) ^ (-x.exponent).toNat * 10 ^ x.exponent = 2 ^ x.exponent := by
      rw [← zpow_natCast, Int.toNat_of_nonneg (by omega), zpow_neg,
        show (10 : ℚ) = 5 * 2 by norm_num, mul_zpow, inv_mul_cancel_left₀]
      exact zpow_ne_zero _ (by norm_num)
    push_cast
    rw [← power, mul_assoc]
    simp

/-- The shortest decimal of a double is read as its magnitude. -/
theorem readsBack_shortest (x : FiniteDouble) : x.readsBack x.shortest = true := by
  unfold shortest
  split
  · rename_i none
    refine decide_eq_true ?_
    have exact_ : decimalValue 0 0 = x.abs.mantissa * 2 ^ x.abs.exponent := by
      rw [show x.abs.mantissa = 0 from none, decimalValue, Nat.cast_zero, zero_mul, zero_mul]
    exact Binary64.ofDecimal_of_exact x.abs exact_
  dsimp only
  split
  · rename_i found
    obtain ⟨places, _, hit⟩ := List.exists_of_findSome?_eq_some found
    exact List.find?_some hit
  · exact decide_eq_true (Binary64.ofDecimal_of_exact x.abs x.value_exactDecimal)

/-- With its sign the shortest decimal of a double is read as the double. -/
theorem ofDecimal_shortest (x : FiniteDouble) :
    Binary64.ofDecimal x.negative x.shortest.digits x.shortest.exponent = .finite x :=
  Binary64.ofDecimal_finite (of_decide_eq_true x.readsBack_shortest) x.negative

end FiniteDouble

end TaintFlow.Number
