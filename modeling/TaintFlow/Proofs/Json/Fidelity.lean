import TaintFlow.Proofs.Data.Assoc
import TaintFlow.Proofs.Json.Reread
import TaintFlow.Proofs.Number.Notation
import TaintFlow.Ledger

/-!
# JSON that is read back as it was written

A value is read back as it was written if no whole number in it is too long, its
doubles are finite, no text in it has the halves of a character side by side,
and no object in it names two members alike: the main statement is
`read_write_self`.
-/

namespace TaintFlow

namespace Text

/-- Does no first half of a character stand right before a second half? -/
def isJoined : List Char → Bool
  | c :: d :: rest => !(isFirstHalf (codeOf c) && isSecondHalf (codeOf d)) && isJoined (d :: rest)
  | _ => true

theorem rejoin_of_isJoined {text : List Char} (joined : isJoined text = true) :
    rejoin text = text := by
  fun_induction rejoin text with
  | case1 => rfl
  | case2 c => rfl
  | case3 c d rest both =>
      rw [isJoined, both] at joined
      cases joined
  | case4 c d rest apart ih =>
      rw [isJoined, Bool.and_eq_true] at joined
      rw [ih joined.2]

/-- A text of whole characters has no halves side by side. -/
theorem isJoined_of_not_hasHalf {text : List Char} (whole : hasHalf text = false) :
    isJoined text = true := by
  unfold hasHalf at whole
  fun_induction isJoined text with
  | case1 c d rest ih =>
      rw [List.any_cons, Bool.or_eq_false_iff] at whole
      rw [codeOf_of_not_isHalf whole.1, ih whole.2]
      rfl
  | case2 => rfl

theorem length_rejoin_le (text : List Char) : (rejoin text).length ≤ text.length := by
  fun_induction rejoin text with
  | case1 => exact Nat.le_refl _
  | case2 c => exact Nat.le_refl _
  | case3 c d rest both ih =>
      simp only [List.length_cons]
      omega
  | case4 c d rest apart ih => exact Nat.succ_le_succ ih

/-- Joining halves leaves those texts as they are that have none side by side. -/
theorem rejoin_eq_self_iff {text : List Char} : rejoin text = text ↔ isJoined text = true := by
  refine ⟨fun same => ?_, rejoin_of_isJoined⟩
  fun_induction rejoin text with
  | case1 => rfl
  | case2 c => rfl
  | case3 c d rest both ih =>
      have shorter := length_rejoin_le rest
      have length := congrArg List.length same
      simp only [List.length_cons] at length
      omega
  | case4 c d rest apart ih =>
      rw [isJoined, Bool.and_eq_true, Bool.not_eq_true']
      exact ⟨Bool.not_eq_true _ ▸ apart, ih (List.cons.inj same).2⟩

theorem ofList_rejoin_eq_self_iff {s : String} :
    String.ofList (rejoin s.toList) = s ↔ isJoined s.toList = true := by
  rw [← rejoin_eq_self_iff]
  exact ⟨fun same => String.toList_ofList.symm.trans (congrArg String.toList same),
    fun same => (congrArg String.ofList same).trans String.ofList_toList⟩

end Text

namespace Json

open Number Text

/-! ## Numbers -/

theorem length_toDigits_le {n most : Nat} (some_ : 0 < most) (short : n < Nat.pow 10 most) :
    (Nat.toDigits 10 n).length ≤ most :=
  (Nat.length_toDigits_le_iff (by decide) some_).mpr short

/-- A row that begins with no zero, or is a zero, may stand before the point. -/
theorem isWholePart_cons {c : Char} {rest : List Char} (front : c = '0' → rest = []) :
    isWholePart (c :: rest) = true := by
  by_cases zero : c = '0'
  · rw [zero, front zero]
    rfl
  · rw [isWholePart]
    · exact decide_eq_true zero
    · exact fun zero' => absurd zero' zero

theorem ofNumberText?_of_digit {c : Char} {rest : List Char} (digit : isDigit c = true)
    (negative : Bool) :
    ofNumberText? (if negative then '-' :: c :: rest else c :: rest) =
      ofUnsignedText? negative (c :: rest) := by
  cases negative with
  | true => rfl
  | false =>
      show ofNumberText? (c :: rest) = _
      rw [ofNumberText?]
      rintro row ⟨⟩
      cases digit

/-- A row of digits that is not too long is read as the whole number that it writes. -/
theorem ofUnsignedText?_toDigits {n : Nat} (short : n < Nat.pow 10 maxDigits) (negative : Bool) :
    ofUnsignedText? negative (Nat.toDigits 10 n) =
      some (.int (if negative then -(n : Int) else n)) := by
  have length := length_toDigits_le (by decide) short
  have read := ofDigits?_toDigits 10 (by decide) (by decide) n
  have whole : (Nat.toDigits 10 n).takeWhile isDigit = Nat.toDigits 10 n := by
    have all := (allDigits_toDigits n).takeWhile_append [] nofun
    rw [List.append_nil] at all
    exact all.1
  have first : isWholePart (Nat.toDigits 10 n) = true := by
    by_cases none : n = 0
    · rw [none]
      rfl
    · obtain ⟨c, rest, front, other⟩ := toDigits_head none
      rw [front]
      exact isWholePart_cons fun zero => absurd zero other
  unfold ofUnsignedText?
  rw [whole]
  dsimp only
  rw [first, if_neg (by decide), if_pos rfl, if_neg (Nat.not_lt_of_le length)]
  cases row : Nat.toDigits 10 n with
  | nil => exact absurd row Nat.toDigits_ne_nil
  | cons c rest =>
      rw [row] at read
      rw [ofDigitRow?, read]
      · rfl
      · exact nofun

/-- A whole number that is not too long is read back as it was written. -/
theorem ofNumberText?_int {n : Int} (writable : Number.isWritable n = true) :
    ofNumberText? (toString n).toList = some (.int n) := by
  have short : n.natAbs < Nat.pow 10 maxDigits := of_decide_eq_true writable
  obtain ⟨c, rest, row⟩ := List.exists_cons_of_ne_nil (Nat.toDigits_ne_nil (b := 10) (n := n.natAbs))
  have digit : isDigit c = true := allDigits_toDigits n.natAbs c (row ▸ List.mem_cons_self)
  rw [toList_toString_int, row, ofNumberText?_of_digit digit, ← row,
    ofUnsignedText?_toDigits short]
  refine congrArg (fun m => some (Json.int m)) ?_
  split
  · rename_i below
    have := of_decide_eq_true below
    omega
  · rename_i notBelow
    have := of_decide_eq_false (Bool.eq_false_iff.mpr notBelow)
    omega

/-! ## Doubles -/

/-- Digits with a point, an exponent or both are read as a double. -/
theorem ofUnsignedText?_pointedText {whole places tail : List Char} {e : Int}
    (first : isWholePart whole = true) (before : AllDigits whole) (after : AllDigits places)
    (ends : IsExponent tail e) (marked : places ≠ [] ∨ tail ≠ []) (negative : Bool) :
    ofUnsignedText? negative (pointedText whole places tail) =
      some (.float (DecimalText.toDouble ⟨whole, places, e⟩ negative)) := by
  have some_ : whole ≠ [] := by
    rintro rfl
    cases first
  have read := readDecimal?_pointedText some_ before after ends
  have stops : ∀ c ∈ tail.head?, isDigit c = false := fun c front => (ends.stops c front).1
  cases places with
  | nil =>
      have text : pointedText whole [] tail = whole ++ tail := rfl
      obtain ⟨c, more, rfl⟩ := List.exists_cons_of_ne_nil (marked.resolve_left (absurd rfl))
      have other : c ≠ '.' := (ends.stops c rfl).2
      rw [text] at read ⊢
      unfold ofUnsignedText?
      rw [(before.takeWhile_append _ stops).1]
      dsimp only
      rw [first, if_neg (by decide), if_neg (by simp), List.drop_left, read]
      split
      · rename_i same
        exact absurd (List.cons.inj same).1 other
      · rename_i same
        exact absurd (List.cons.inj same).1 other
      · rfl
  | cons c places =>
      have text : pointedText whole (c :: places) tail = whole ++ '.' :: c :: (places ++ tail) := rfl
      have point : ∀ d ∈ ('.' :: c :: (places ++ tail)).head?, isDigit d = false := by
        intro d front
        obtain rfl := Option.some.inj front
        rfl
      rw [text] at read ⊢
      unfold ofUnsignedText?
      rw [(before.takeWhile_append _ point).1]
      dsimp only
      rw [first, if_neg (by decide), if_neg (by simp), List.drop_left, read]
      exact if_pos (after c List.mem_cons_self)

/-- With an exponent a double has a single digit before its point, and else the point is where the
digits have it, with a digit behind. -/
theorem magnitude_eq (x : FiniteDouble) (row : Digits)
    (same : row.digits = (FloatForm.shortest.digitsOf x).digits)
    (point : row.point = if floatStyle.usesExponent (FloatForm.shortest.digitsOf x).point then 1
      else (FloatForm.shortest.digitsOf x).point) :
    floatStyle.magnitude x = pointedText (row.slice (min (row.point - 1) 0) row.point)
      (row.slice row.point (max row.digits.length
        (if floatStyle.usesExponent (FloatForm.shortest.digitsOf x).point then row.point
          else row.point + 1)))
      (if floatStyle.usesExponent (FloatForm.shortest.digitsOf x).point then
        exponentText 'e' ((FloatForm.shortest.digitsOf x).point - 1) else []) := by
  have joined (whole places tail : List Char) :
      pointedText whole places tail =
        (if places.isEmpty && !false then whole else whole ++ '.' :: places) ++ tail := by
    cases places with
    | nil => rfl
    | cons c places => exact (List.append_assoc _ _ _).symm
  obtain ⟨digits, place⟩ := row
  obtain rfl : digits = _ := same
  obtain rfl : place = _ := point
  rw [joined]
  unfold FloatStyle.magnitude
  have form : floatStyle.form = .shortest := rfl
  dsimp only
  rw [form]
  cases floatStyle.usesExponent (FloatForm.shortest.digitsOf x).point with
  | true => rfl
  | false => exact (List.append_nil _).symm

/-- Before the point stands a zero alone, or what begins with none. -/
theorem isWholePart_slice {row : Digits} {c : Char} {rest : List Char}
    (front : row.digits = c :: rest) (zero : c = '0' → row.point = 1) :
    isWholePart (row.slice (min (row.point - 1) 0) row.point) = true := by
  have length : (row.digits.length : Int) = rest.length + 1 := by
    rw [front, List.length_cons]
    rfl
  unfold Digits.slice
  dsimp only
  by_cases leading : row.point ≤ 0
  · rw [show (min 0 row.point - min (row.point - 1) 0).toNat = 1 by omega,
      show (row.point - max (min (row.point - 1) 0) row.digits.length).toNat = 0 by omega,
      show row.point.toNat = 0 by omega, List.take_zero, List.drop_nil]
    rfl
  · rw [show (min 0 row.point - min (row.point - 1) 0).toNat = 0 by omega,
      show (min (row.point - 1) 0).toNat = 0 by omega,
      show row.point.toNat = (row.point.toNat - 1) + 1 by omega, front]
    refine isWholePart_cons fun same => ?_
    have one := zero same
    rw [show row.point.toNat - 1 = 0 by omega,
      show (row.point - max (min (row.point - 1) 0) ((c :: rest).length : Int)).toNat = 0 by
        rw [List.length_cons]
        omega]
    rfl

/-- Digits that stand for a double are read as the double, wherever their point is put. -/
theorem ofNumberText?_row {x : FiniteDouble} {row : Digits} {tail : List Char} {e stop : Int}
    (stands : Digits.StandFor ⟨row.digits, row.point + e⟩ x) (ends : IsExponent tail e)
    (first : row.point = 1 ∨ e = 0) (covers : (row.digits.length : Int) ≤ stop)
    (reaches : row.point ≤ stop) (marked : row.point < stop ∨ tail ≠ []) :
    ofNumberText? (if x.negative then
        '-' :: pointedText (row.slice (min (row.point - 1) 0) row.point) (row.slice row.point stop) tail
      else pointedText (row.slice (min (row.point - 1) 0) row.point) (row.slice row.point stop) tail) =
      some (.float (.finite x)) := by
  obtain ⟨digits, ⟨c, rest, front, zero⟩, n, number, read⟩ := stands
  change AllDigits row.digits at digits
  change row.digits = c :: rest at front
  change c = '0' → row.point + e = 1 at zero
  have some_ : row.digits ≠ [] := front ▸ List.cons_ne_nil c rest
  have zeroFirst : c = '0' → row.point = 1 := by
    intro same
    have := zero same
    rcases first with one | rfl
    · exact one
    · rwa [add_zero] at this
  have whole := isWholePart_slice front zeroFirst
  have before := allDigits_slice digits (min (row.point - 1) 0) row.point
  have after := allDigits_slice digits row.point stop
  have marked' : row.slice row.point stop ≠ [] ∨ tail ≠ [] := by
    refine marked.imp_left fun longer none => ?_
    have length := length_slice some_ covers reaches
    rw [none, List.length_nil] at length
    omega
  have double := ofDecimal_slices some_ covers reaches number read
  have text := ofUnsignedText?_pointedText whole before after ends marked' x.negative
  rw [double] at text
  cases front' : row.slice (min (row.point - 1) 0) row.point with
  | nil =>
      rw [front'] at whole
      cases whole
  | cons d more =>
      rw [front'] at before text
      rw [← text]
      exact ofNumberText?_of_digit (before d List.mem_cons_self) x.negative

/-- A finite double is read back as it was written. -/
theorem ofNumberText?_finite (x : FiniteDouble) :
    ofNumberText? (floatStyle.write (.finite x)) = some (.float (.finite x)) := by
  have stands := standFor_digitsOf x
  show ofNumberText? (if x.negative then '-' :: floatStyle.magnitude x
    else floatStyle.magnitude x) = _
  cases exponent : floatStyle.usesExponent (FloatForm.shortest.digitsOf x).point with
  | true =>
      rw [magnitude_eq x ⟨(FloatForm.shortest.digitsOf x).digits, 1⟩ rfl
        (by rw [if_pos exponent]), if_pos exponent, if_pos exponent]
      refine ofNumberText?_row ?_ (isExponent_exponentText _) (.inl rfl) (by omega) (by omega)
        (.inr nofun)
      rwa [show (1 : Int) + ((FloatForm.shortest.digitsOf x).point - 1) =
        (FloatForm.shortest.digitsOf x).point by omega]
  | false =>
      rw [magnitude_eq x (FloatForm.shortest.digitsOf x) rfl
        (by rw [exponent]; rfl), exponent]
      exact ofNumberText?_row (by rwa [add_zero]) isExponent_nil (.inr rfl) (le_max_left _ _)
        ((Int.le_of_lt (Int.lt_succ _)).trans (le_max_right _ _))
        (.inl ((Int.lt_succ _).trans_le (le_max_right _ _)))

/-! ## Values -/

/-- The doubles in the value are finite, and no object names two members alike. -/
inductive Plain : Json → Prop where
  | null : Plain .null
  | bool (b : Bool) : Plain (.bool b)
  | int (n : Int) : Plain (.int n)
  | float (x : FiniteDouble) : Plain (.float (.finite x))
  | text (s : String) : Plain (.text s)
  | array {items : List Json} (each : ∀ item ∈ items, Plain item) : Plain (.array items)
  | object {members : List (String × Json)} (names : (Assoc.keys members).Nodup)
      (each : ∀ entry ∈ members, Plain entry.2) : Plain (.object members)

/-- Has no text in the value, and no name, the halves of a character side by side? -/
def isJoined (value : Json) : Bool :=
  value.leaves.all fun leaf =>
    match leaf with
    | .text s => Text.isJoined s.toList
    | _ => true

theorem leaves_item {items : List Json} {item leaf : Json} (inside : item ∈ items)
    (part : leaf ∈ item.leaves) : leaf ∈ (Json.array items).leaves := by
  show leaf ∈ leavesOfItems items
  induction items with
  | nil => cases inside
  | cons first rest ih =>
      rw [leavesOfItems, List.mem_append]
      rcases List.mem_cons.mp inside with rfl | later
      · exact .inl part
      · exact .inr (ih later)

theorem leaves_member {members : List (String × Json)} {entry : String × Json} {leaf : Json}
    (inside : entry ∈ members) (part : leaf = .text entry.1 ∨ leaf ∈ entry.2.leaves) :
    leaf ∈ (Json.object members).leaves := by
  show leaf ∈ leavesOfMembers members
  induction members with
  | nil => cases inside
  | cons first rest ih =>
      rw [leavesOfMembers, List.cons_append, List.mem_cons, List.mem_append]
      rcases List.mem_cons.mp inside with rfl | later
      · exact part.imp_right .inl
      · exact .inr (.inr (ih later))

theorem rereadItems_self {items : List Json} (each : ∀ item ∈ items, reread item = some item) :
    rereadItems items = some items := by
  induction items with
  | nil => rfl
  | cons first rest ih =>
      rw [rereadItems, each first List.mem_cons_self,
        ih fun item inside => each item (List.mem_cons_of_mem _ inside)]
      rfl

/-- The first member is read as the second one. -/
def RereadAs (entry entry' : String × Json) : Prop :=
  rejoin entry.1.toList = entry'.1.toList ∧ reread entry.2 = some entry'.2

/-- Members are read one by one. -/
theorem rereadMembers_of_forall₂ {members members' : List (String × Json)}
    (each : List.Forall₂ RereadAs members members') : rereadMembers members = some members' := by
  induction each with
  | nil => rfl
  | cons first _ ih =>
      rw [rereadMembers, first.1, first.2, ih, String.ofList_toList]
      rfl

/-- A plain value is read back as it was written if its numbers are not too long and its texts
have no halves side by side. -/
theorem reread_of_leaves {value : Json} (plain : value.Plain)
    (writable : ∀ n, .int n ∈ value.leaves → Number.isWritable n = true)
    (joined : ∀ s, .text s ∈ value.leaves → Text.isJoined s.toList = true) :
    reread value = some value := by
  induction plain with
  | null => rfl
  | bool b => rfl
  | int n => exact ofNumberText?_int (writable n (List.mem_singleton.mpr rfl))
  | float x => exact ofNumberText?_finite x
  | text s =>
      rw [reread, rejoin_of_isJoined (joined s (List.mem_singleton.mpr rfl)), String.ofList_toList]
  | array each ih =>
      rw [reread, rereadItems_self fun item inside => ih item inside
        (fun n part => writable n (leaves_item inside part))
        (fun s part => joined s (leaves_item inside part))]
      rfl
  | object names each ih =>
      rw [reread, rereadMembers_of_forall₂ <| List.forall₂_same.mpr fun entry inside =>
        ⟨rejoin_of_isJoined (joined entry.1 (leaves_member inside (.inl rfl))), ih entry inside
          (fun n part => writable n (leaves_member inside (.inr part)))
          (fun s part => joined s (leaves_member inside (.inr part)))⟩,
        Option.map_some, Assoc.ofList_self names]

/-- The text of a value is read as the value. -/
theorem read_write_self {value : Json} (plain : value.Plain) (writable : value.isWritable = true)
    (joined : value.isJoined = true) : read value.write = some value := by
  unfold isWritable at writable
  unfold isJoined at joined
  rw [List.all_eq_true] at writable joined
  rw [read_write]
  exact reread_of_leaves plain (fun n part => writable (.int n) part)
    (fun s part => joined (.text s) part)

end Json

end TaintFlow

/-!
## Members in the order of their names

Putting the members of every object in the order of their names changes nothing
but that order.
-/

namespace TaintFlow.Json

/-- Two values differ at most in the order of the members of objects. -/
inductive Alike : Json → Json → Prop where
  | refl (value : Json) : Alike value value
  | array {items items' : List Json} (each : List.Forall₂ Alike items items') :
      Alike (.array items) (.array items')
  | object {members between members' : List (String × Json)}
      (names : Assoc.keys members = Assoc.keys between)
      (each : List.Forall₂ Alike (members.map Prod.snd) (between.map Prod.snd))
      (order : between.Perm members') : Alike (.object members) (.object members')

theorem sortItems_eq_map (items : List Json) : sortItems items = items.map sortMembers := by
  induction items with
  | nil => rfl
  | cons item rest ih => rw [sortItems, ih, List.map_cons]

theorem sortValues_eq_map (members : List (String × Json)) :
    sortValues members = members.map fun entry => (entry.1, sortMembers entry.2) := by
  induction members with
  | nil => rfl
  | cons entry rest ih => rw [sortValues, ih, List.map_cons]

theorem keys_sortValues (members : List (String × Json)) :
    Assoc.keys (sortValues members) = Assoc.keys members := by
  rw [sortValues_eq_map]
  exact Assoc.keys_map sortMembers members

theorem leavesOfItems_eq_flatMap (items : List Json) :
    leavesOfItems items = items.flatMap leaves := by
  induction items with
  | nil => rfl
  | cons item rest ih => rw [leavesOfItems, ih, List.flatMap_cons]

theorem leavesOfMembers_eq_flatMap (members : List (String × Json)) :
    leavesOfMembers members = members.flatMap fun entry => .text entry.1 :: entry.2.leaves := by
  induction members with
  | nil => rfl
  | cons entry rest ih => rw [leavesOfMembers, ih, List.flatMap_cons]

mutual

/-- Sorting changes only the order of members. -/
theorem alike_sortMembers : ∀ value : Json, Alike value value.sortMembers
  | .array items => .array (alike_sortItems items)
  | .object members =>
    .object (keys_sortValues members).symm (alike_sortValues members)
      (List.mergeSort_perm _ _).symm
  | .null | .bool _ | .int _ | .float _ | .text _ => .refl _

theorem alike_sortItems : ∀ items : List Json, List.Forall₂ Alike items (sortItems items)
  | [] => .nil
  | item :: rest => .cons (alike_sortMembers item) (alike_sortItems rest)

theorem alike_sortValues : ∀ members : List (String × Json),
    List.Forall₂ Alike (members.map Prod.snd) ((sortValues members).map Prod.snd)
  | [] => .nil
  | (_, value) :: rest => .cons (alike_sortMembers value) (alike_sortValues rest)

end

mutual

/-- Sorting keeps what a value is made of. -/
theorem leaves_sortMembers : ∀ value : Json, value.sortMembers.leaves.Perm value.leaves
  | .array items => leaves_sortItems items
  | .object members => by
      refine List.Perm.trans ?_ (leaves_sortValues members)
      show (leavesOfMembers _).Perm _
      rw [leavesOfMembers_eq_flatMap, leavesOfMembers_eq_flatMap]
      exact (List.mergeSort_perm _ _).flatMap_right _
  | .null | .bool _ | .int _ | .float _ | .text _ => .refl _

theorem leaves_sortItems : ∀ items : List Json,
    (leavesOfItems (sortItems items)).Perm (leavesOfItems items)
  | [] => .refl _
  | item :: rest => (leaves_sortMembers item).append (leaves_sortItems rest)

theorem leaves_sortValues : ∀ members : List (String × Json),
    (leavesOfMembers (sortValues members)).Perm (leavesOfMembers members)
  | [] => .refl _
  | (_, value) :: rest => ((leaves_sortMembers value).append (leaves_sortValues rest)).cons _

end

theorem isWritable_sortMembers (value : Json) :
    value.sortMembers.isWritable = value.isWritable :=
  (leaves_sortMembers value).all_eq

theorem isJoined_sortMembers (value : Json) : value.sortMembers.isJoined = value.isJoined :=
  (leaves_sortMembers value).all_eq

theorem Plain.sortMembers {value : Json} (plain : value.Plain) : value.sortMembers.Plain := by
  induction plain with
  | null => exact .null
  | bool b => exact .bool b
  | int n => exact .int n
  | float x => exact .float x
  | text s => exact .text s
  | array each ih =>
      rw [Json.sortMembers, sortItems_eq_map]
      refine .array fun item inside => ?_
      obtain ⟨item', inside', rfl⟩ := List.mem_map.mp inside
      exact ih item' inside'
  | @object members names each ih =>
      have order := List.mergeSort_perm (sortValues members) fun a b => !decide (b.1 < a.1)
      refine .object ?_ fun entry inside => ?_
      · refine (order.map Prod.fst).nodup_iff.mpr ?_
        exact ((keys_sortValues members).symm ▸ names : (Assoc.keys (sortValues members)).Nodup)
      · have inside' := order.mem_iff.mp inside
        rw [sortValues_eq_map] at inside'
        obtain ⟨entry', there, rfl⟩ := List.mem_map.mp inside'
        exact ih entry' there

/-- The text of a sorted value is read as the sorted value. -/
theorem read_write_sortMembers {value : Json} (plain : value.Plain)
    (writable : value.isWritable = true) (joined : value.isJoined = true) :
    read value.sortMembers.write = some value.sortMembers :=
  read_write_self plain.sortMembers ((isWritable_sortMembers value).trans writable)
    ((isJoined_sortMembers value).trans joined)

end TaintFlow.Json
