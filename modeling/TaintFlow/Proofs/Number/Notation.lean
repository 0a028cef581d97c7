import TaintFlow.Proofs.Number.Decimal
import TaintFlow.Proofs.Number.Digits

/-!
# Doubles that are written and read

The text of a double is a row of digits with a point in it and perhaps an
exponent.  Wherever the point is put, and however many zeros fill the row up to
it, the decimal that is read has the number of the significant digits, which is
read as the double.
-/

namespace TaintFlow.Number

/-! ## Significant digits -/

/-- Digits that stand for a double: they begin with no zero, and with the point in its place they
are read as the double. -/
structure Digits.StandFor (d : Digits) (x : FiniteDouble) : Prop where
  digits : AllDigits d.digits
  /-- A zero at the front stands before the point. -/
  head : ∃ c rest, d.digits = c :: rest ∧ (c = '0' → d.point = 1)
  read : ∃ n, ofDigits? 10 d.digits = some n ∧
    Binary64.ofDecimal x.negative n (d.point - d.digits.length) = .finite x

/-- The shortest digits of a double stand for it. -/
theorem standFor_digitsOf (x : FiniteDouble) : (FloatForm.shortest.digitsOf x).StandFor x := by
  have shortest := x.ofDecimal_shortest
  unfold FloatForm.digitsOf
  dsimp only
  split
  · rename_i none
    have noDigits : x.mantissa = 0 := of_decide_eq_true none
    refine ⟨?_, ⟨'0', [], rfl, fun _ => rfl⟩, 0, rfl, ?_⟩
    · intro c inside
      rw [List.mem_singleton.mp inside]
      rfl
    · refine Binary64.ofDecimal_of_exact x ?_
      rw [noDigits, decimalValue, Nat.cast_zero, zero_mul, zero_mul]
  rename_i some_
  have digits_some : x.shortest.digits ≠ 0 := by
    intro none
    rw [none, Binary64.ofDecimal, if_pos rfl] at shortest
    have same := congrArg FiniteDouble.mantissa (Binary64.finite.inj shortest)
    exact some_ (decide_eq_true same.symm)
  obtain ⟨c, rest, front, other⟩ := toDigits_head digits_some
  obtain ⟨rest', trimmed⟩ := trimZeros_head rest other
  obtain ⟨count, filled⟩ := trimZeros_append (Nat.toDigits 10 x.shortest.digits)
  have inside : AllDigits (Digits.trimZeros (Nat.toDigits 10 x.shortest.digits)) := by
    refine (allDigits_toDigits x.shortest.digits).sublist ?_
    conv_rhs => rw [filled]
    exact List.sublist_append_left _ _
  refine ⟨inside, ⟨c, rest', by rw [Digits.ofDecimal, front]; exact trimmed,
    fun zero => absurd zero other⟩, ?_⟩
  have whole := ofDigits?_toDigits 10 (by decide) (by decide) x.shortest.digits
  have length := congrArg List.length filled
  rw [List.length_append, List.length_replicate] at length
  rw [filled, ofDigits?_append_zeros _ (by decide)] at whole
  obtain ⟨n, read, scaled⟩ := Option.map_eq_some_iff.mp whole
  refine ⟨n, read, ?_⟩
  rw [← shortest]
  refine Binary64.ofDecimal_congr _ ?_
  have place : (Digits.ofDecimal x.shortest).point -
      ((Digits.ofDecimal x.shortest).digits.length : Int) = count + x.shortest.exponent := by
    unfold Digits.ofDecimal
    dsimp only
    omega
  rw [place, decimalValue, decimalValue, zpow_add₀ (by norm_num), ← mul_assoc, ← scaled,
    zpow_natCast]
  push_cast
  rfl

/-! ## Digits around a point -/

variable {d : Digits} {stop : Int}

theorem allDigits_slice (digits : AllDigits d.digits) (start stop : Int) :
    AllDigits (d.slice start stop) :=
  ((allDigits_zeros _).append
    (digits.sublist ((List.drop_sublist _ _).trans (List.take_sublist _ _)))).append
      (allDigits_zeros _)

/-- The digits before the point and those after it are all digits, with zeros around them. -/
theorem slice_append (some_ : d.digits ≠ []) (covers : (d.digits.length : Int) ≤ stop)
    (reaches : d.point ≤ stop) :
    ∃ count, d.slice (min (d.point - 1) 0) d.point ++ d.slice d.point stop =
      List.replicate count '0' ++
        (d.digits ++ List.replicate (stop - d.digits.length).toNat '0') := by
  have length := List.length_pos_of_ne_nil some_
  have all : d.digits.take stop.toNat = d.digits := List.take_of_length_le (by omega)
  unfold Digits.slice
  rw [all]
  by_cases leading : d.point ≤ 0
  · -- The point stands before the digits: one zero before it, and the others behind.
    refine ⟨1 + (-d.point).toNat, ?_⟩
    rw [show (min 0 d.point - min (d.point - 1) 0).toNat = 1 by omega,
      show (d.point - max (min (d.point - 1) 0) d.digits.length).toNat = 0 by omega,
      show (min 0 stop - d.point).toNat = (-d.point).toNat by omega,
      show (stop - max d.point d.digits.length).toNat = (stop - d.digits.length).toNat by omega,
      show d.point.toNat = 0 by omega, List.replicate_add]
    simp
  · refine ⟨0, ?_⟩
    rw [show (min 0 d.point - min (d.point - 1) 0).toNat = 0 by omega,
      show (min (d.point - 1) 0).toNat = 0 by omega,
      show (min 0 stop - d.point).toNat = 0 by omega]
    by_cases inside : d.point ≤ d.digits.length
    · rw [show (d.point - max (min (d.point - 1) 0) d.digits.length).toNat = 0 by omega,
        show (stop - max d.point d.digits.length).toNat = (stop - d.digits.length).toNat by omega]
      simp only [List.replicate_zero, List.nil_append, List.append_nil, List.drop_zero]
      rw [← List.append_assoc, List.take_append_drop]
    · rw [List.take_of_length_le (i := d.point.toNat) (by omega),
        List.drop_of_length_le (i := d.point.toNat) (by omega),
        show (d.point - max (min (d.point - 1) 0) d.digits.length).toNat =
          (d.point - d.digits.length).toNat by omega,
        show (stop - max d.point d.digits.length).toNat = (stop - d.point).toNat by omega,
        show (stop - d.digits.length).toNat =
          (d.point - d.digits.length).toNat + (stop - d.point).toNat by omega,
        List.replicate_add]
      simp

theorem length_slice (some_ : d.digits ≠ []) (covers : (d.digits.length : Int) ≤ stop)
    (reaches : d.point ≤ stop) : ((d.slice d.point stop).length : Int) = stop - d.point := by
  have length := List.length_pos_of_ne_nil some_
  unfold Digits.slice
  simp only [List.length_append, List.length_replicate, List.length_drop, List.length_take]
  omega

/-- Wherever the point is put, the digits around it have the number of the significant digits. -/
theorem ofDecimal_slices {x : FiniteDouble} {n : Nat} {exponent : Int} (some_ : d.digits ≠ [])
    (covers : (d.digits.length : Int) ≤ stop) (reaches : d.point ≤ stop)
    (number : ofDigits? 10 d.digits = some n)
    (read : Binary64.ofDecimal x.negative n (d.point + exponent - d.digits.length) = .finite x) :
    DecimalText.toDouble ⟨d.slice (min (d.point - 1) 0) d.point, d.slice d.point stop, exponent⟩
      x.negative = .finite x := by
  obtain ⟨count, around⟩ := slice_append some_ covers reaches
  unfold DecimalText.toDouble
  dsimp only
  rw [around, ofDigits?_zeros_append _ (by decide), ofDigits?_append_zeros _ (by decide), number,
    length_slice some_ covers reaches, ← read]
  refine Binary64.ofDecimal_congr _ ?_
  have shift : d.point + exponent - d.digits.length =
      ((stop - d.digits.length).toNat : Int) + (exponent - (stop - d.point)) := by omega
  rw [shift, decimalValue, decimalValue, zpow_add₀ (by norm_num), ← mul_assoc, zpow_natCast]
  show ((n * 10 ^ (stop - d.digits.length).toNat : Nat) : ℚ) * _ = _
  push_cast
  rfl

/-! ## Reading decimals -/

/-- Digits without a point, or with one, and an exponent or none. -/
def pointedText (whole places : List Char) (tail : List Char) : List Char :=
  whole ++ ((if places.isEmpty then [] else '.' :: places) ++ tail)

theorem readExponent?_exponentText (e : Int) : readExponent? (exponentText 'e' e) = some e := by
  have row : ∃ row, (if (Nat.toDigits 10 e.natAbs).length < 2 then '0' :: Nat.toDigits 10 e.natAbs
      else Nat.toDigits 10 e.natAbs) = row ∧ ofDigitRow? 10 row = some e.natAbs := by
    have read := ofDigits?_toDigits 10 (by decide) (by decide) e.natAbs
    refine ⟨_, rfl, ?_⟩
    split
    · exact (ofDigits?_zeros_append 10 (by decide) 1 _).trans read
    · cases digits : Nat.toDigits 10 e.natAbs with
      | nil => exact absurd digits Nat.toDigits_ne_nil
      | cons c rest => rw [digits] at read; exact read
  obtain ⟨row, same, read⟩ := row
  unfold exponentText readExponent?
  dsimp only
  rw [same, if_pos (.inl rfl)]
  split
  · rename_i negative
    simp only [splitSign, read]
    show some (-(e.natAbs : Int)) = some e
    congr 1
    omega
  · rename_i positive
    simp only [splitSign, read]
    show some (e.natAbs : Int) = some e
    congr 1
    omega

/-- An exponent, or none for zero, begins with no digit and no point, and is read as what it is. -/
structure IsExponent (tail : List Char) (e : Int) : Prop where
  stops : ∀ c ∈ tail.head?, isDigit c = false ∧ c ≠ '.'
  read : readExponent? tail = some e

theorem isExponent_nil : IsExponent [] 0 := ⟨nofun, rfl⟩

theorem isExponent_exponentText (e : Int) : IsExponent (exponentText 'e' e) e := by
  refine ⟨?_, readExponent?_exponentText e⟩
  intro c front
  obtain rfl := Option.some.inj front
  exact ⟨rfl, by decide⟩

/-- The parts of a decimal are read as they are written. -/
theorem readDecimal?_pointedText {whole places tail : List Char} {e : Int} (some_ : whole ≠ [])
    (before : AllDigits whole) (after : AllDigits places) (ends : IsExponent tail e) :
    readDecimal? (pointedText whole places tail) = some ⟨whole, places, e⟩ := by
  have stops : ∀ c ∈ tail.head?, isDigit c = false := fun c front => (ends.stops c front).1
  cases places with
  | nil =>
      obtain ⟨front, rest⟩ := before.takeWhile_append tail stops
      show readDecimal? (whole ++ tail) = _
      unfold readDecimal? splitDigits
      simp only [front, rest]
      split
      · exact absurd rfl (ends.stops '.' rfl).2
      · rw [if_neg (by simp [some_]), ends.read]
        rfl
  | cons c places =>
      obtain ⟨front, rest⟩ := before.takeWhile_append ('.' :: (c :: places ++ tail)) (by
        intro d head
        obtain rfl := Option.some.inj head
        rfl)
      obtain ⟨front', rest'⟩ := after.takeWhile_append tail stops
      show readDecimal? (whole ++ '.' :: (c :: places ++ tail)) = _
      unfold readDecimal? splitDigits
      simp only [front, rest, front', rest']
      rw [if_neg (by simp), ends.read]
      rfl

end TaintFlow.Number
