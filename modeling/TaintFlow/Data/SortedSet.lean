/-!
# Finite sets in sorted order

A finite set is the strictly increasing list of its members, ordered by a row
of texts that tells any two members apart.  Equal sets are therefore equal
lists, and listing a set needs no further sorting.

The main statements are `SortedSet.ext`, which makes sets with the same members
equal, and one membership equation for each operation.
-/

namespace TaintFlow

/-- A type whose members are ordered by rows of texts. -/
class SortKey (α : Type) where
  key : α → List String
  key_injective : ∀ a b, key a = key b → a = b

namespace SortKey

variable {α : Type} [SortKey α]

/-- Does `a` come before `b`? -/
def Before (a b : α) : Prop := key a < key b

instance (a b : α) : Decidable (Before a b) := inferInstanceAs (Decidable (key a < key b))

theorem before_trans {a b c : α} (h : Before a b) (k : Before b c) : Before a c :=
  List.lt_trans h k

theorem not_before_self (a : α) : ¬ Before a a := List.lt_irrefl (key a)

theorem before_or_eq_or_before (a b : α) : Before a b ∨ a = b ∨ Before b a := by
  by_cases h : Before a b
  · exact .inl h
  · by_cases k : Before b a
    · exact .inr (.inr k)
    · exact .inr (.inl (key_injective a b
        (List.le_antisymm (List.not_lt.mp k) (List.not_lt.mp h))))

instance : SortKey String where
  key s := [s]
  key_injective a b h := by simpa using h

end SortKey

open SortKey

/-- A finite set, listed in order. -/
structure SortedSet (α : Type) [SortKey α] where
  toList : List α
  sorted : toList.Pairwise Before

namespace SortedSet

variable {α : Type} [SortKey α]

instance [DecidableEq α] : DecidableEq (SortedSet α) := fun s t =>
  decidable_of_iff (s.toList = t.toList) (by cases s; cases t; simp)

instance : Membership α (SortedSet α) := ⟨fun s a => a ∈ s.toList⟩

instance [DecidableEq α] (a : α) (s : SortedSet α) : Decidable (a ∈ s) :=
  inferInstanceAs (Decidable (a ∈ s.toList))

instance : EmptyCollection (SortedSet α) := ⟨⟨[], .nil⟩⟩

instance : Inhabited (SortedSet α) := ⟨∅⟩

@[simp] theorem mem_toList {a : α} {s : SortedSet α} : a ∈ s.toList ↔ a ∈ s := Iff.rfl

@[simp] theorem toList_empty : (∅ : SortedSet α).toList = [] := rfl

@[simp] theorem not_mem_empty (a : α) : ¬ a ∈ (∅ : SortedSet α) := List.not_mem_nil

/-- Put a member into a sorted list at its place; one that is there already stays. -/
def insertList (a : α) : List α → List α
  | [] => [a]
  | b :: rest =>
    if Before a b then a :: b :: rest
    else if Before b a then b :: insertList a rest
    else b :: rest

theorem mem_insertList {a x : α} {l : List α} : x ∈ insertList a l ↔ x = a ∨ x ∈ l := by
  induction l with
  | nil => simp [insertList]
  | cons b rest ih =>
    simp only [insertList]
    split
    · simp
    · rename_i notBefore
      split
      · simp [ih, or_left_comm]
      · rename_i notAfter
        have same : a = b := by
          rcases before_or_eq_or_before a b with h | h | h
          · exact absurd h notBefore
          · exact h
          · exact absurd h notAfter
        simp [same]

theorem pairwise_insertList {a : α} {l : List α} (h : l.Pairwise Before) :
    (insertList a l).Pairwise Before := by
  induction l with
  | nil => simp [insertList]
  | cons b rest ih =>
    simp only [insertList]
    have tail := List.pairwise_cons.mp h
    split
    · rename_i first
      refine List.pairwise_cons.mpr ⟨fun x hx => ?_, h⟩
      rcases List.mem_cons.mp hx with rfl | hx
      · exact first
      · exact before_trans first (tail.1 x hx)
    · split
      · rename_i later
        refine List.pairwise_cons.mpr ⟨fun x hx => ?_, ih tail.2⟩
        rcases mem_insertList.mp hx with rfl | hx
        · exact later
        · exact tail.1 x hx
      · exact h

/-- The set with one more member. -/
def insert (a : α) (s : SortedSet α) : SortedSet α :=
  ⟨insertList a s.toList, pairwise_insertList s.sorted⟩

@[simp] theorem mem_insert {a x : α} {s : SortedSet α} : x ∈ s.insert a ↔ x = a ∨ x ∈ s :=
  mem_insertList

/-- The set of the members of a list. -/
def ofList (l : List α) : SortedSet α := l.foldr insert ∅

@[simp] theorem mem_ofList {x : α} {l : List α} : x ∈ ofList l ↔ x ∈ l := by
  induction l with
  | nil => simp [ofList]
  | cons a rest ih =>
    have step : ofList (a :: rest) = (ofList rest).insert a := rfl
    rw [step, mem_insert, ih, List.mem_cons]

/-- The set with a single member. -/
def singleton (a : α) : SortedSet α := ofList [a]

@[simp] theorem mem_singleton {a x : α} : x ∈ singleton a ↔ x = a := by simp [singleton]

/-- The members of either set. -/
def union (s t : SortedSet α) : SortedSet α := s.toList.foldr insert t

instance : Union (SortedSet α) := ⟨union⟩

@[simp] theorem mem_union {x : α} {s t : SortedSet α} : x ∈ s ∪ t ↔ x ∈ s ∨ x ∈ t := by
  have general : ∀ l : List α, x ∈ l.foldr insert t ↔ x ∈ l ∨ x ∈ t := by
    intro l
    induction l with
    | nil => simp
    | cons a rest ih => simp [ih, or_assoc]
  exact general s.toList

/-- The members that pass a test. -/
def filter (p : α → Bool) (s : SortedSet α) : SortedSet α :=
  ⟨s.toList.filter p, s.sorted.filter p⟩

@[simp] theorem mem_filter {p : α → Bool} {x : α} {s : SortedSet α} :
    x ∈ s.filter p ↔ x ∈ s ∧ p x = true := List.mem_filter

/-- The members of the first set that the second lacks. -/
def diff [DecidableEq α] (s t : SortedSet α) : SortedSet α := s.filter fun a => !decide (a ∈ t)

instance [DecidableEq α] : SDiff (SortedSet α) := ⟨diff⟩

@[simp] theorem mem_diff [DecidableEq α] {x : α} {s t : SortedSet α} :
    x ∈ s \ t ↔ x ∈ s ∧ ¬ x ∈ t := by
  have unfolded : s \ t = s.filter fun a => !decide (a ∈ t) := rfl
  simp [unfolded]

instance : HasSubset (SortedSet α) := ⟨fun s t => ∀ a, a ∈ s → a ∈ t⟩

theorem subset_def {s t : SortedSet α} : s ⊆ t ↔ ∀ a, a ∈ s → a ∈ t := Iff.rfl

/-- Has the set no member? -/
def isEmpty (s : SortedSet α) : Bool := s.toList.isEmpty

/-- The number of members. -/
def size (s : SortedSet α) : Nat := s.toList.length

theorem isEmpty_iff {s : SortedSet α} : s.isEmpty = true ↔ ∀ a, ¬ a ∈ s := by
  have general : ∀ l : List α, l.isEmpty = true ↔ ∀ a, ¬ a ∈ l := by
    intro l
    cases l with
    | nil => simp
    | cons b rest =>
      simp only [List.isEmpty_cons]
      exact ⟨nofun, fun h => absurd List.mem_cons_self (h b)⟩
  exact general s.toList

theorem toList_eq_of_mem_iff {l m : List α} (hl : l.Pairwise Before) (hm : m.Pairwise Before)
    (h : ∀ a, a ∈ l ↔ a ∈ m) : l = m := by
  induction l generalizing m with
  | nil =>
    cases m with
    | nil => rfl
    | cons b rest => exact absurd ((h b).mpr List.mem_cons_self) List.not_mem_nil
  | cons a l ih =>
    cases m with
    | nil => exact absurd ((h a).mp List.mem_cons_self) List.not_mem_nil
    | cons b m =>
      have hl' := List.pairwise_cons.mp hl
      have hm' := List.pairwise_cons.mp hm
      have same : a = b := by
        rcases List.mem_cons.mp ((h a).mp List.mem_cons_self) with e | inRest
        · exact e
        · rcases List.mem_cons.mp ((h b).mpr List.mem_cons_self) with e | inRest'
          · exact e.symm
          · exact absurd (before_trans (hl'.1 b inRest') (hm'.1 a inRest)) (not_before_self a)
      subst same
      congr 1
      refine ih hl'.2 hm'.2 fun x => ⟨fun hx => ?_, fun hx => ?_⟩
      · rcases List.mem_cons.mp ((h x).mp (List.mem_cons_of_mem _ hx)) with rfl | k
        · exact absurd (hl'.1 x hx) (not_before_self x)
        · exact k
      · rcases List.mem_cons.mp ((h x).mpr (List.mem_cons_of_mem _ hx)) with rfl | k
        · exact absurd (hm'.1 x hx) (not_before_self x)
        · exact k

/-- Sets with the same members are equal. -/
theorem ext {s t : SortedSet α} (h : ∀ a, a ∈ s ↔ a ∈ t) : s = t := by
  have lists := toList_eq_of_mem_iff s.sorted t.sorted h
  cases s
  cases t
  simp_all

end SortedSet

end TaintFlow
