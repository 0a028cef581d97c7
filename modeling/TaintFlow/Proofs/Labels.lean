import TaintFlow.Value

/-!
# Unions of label sets

Unions of sorted sets are compared by their members, so they are associative
and have the empty set as a unit.  The labels of several values together are a
union along the list of values.
-/

namespace TaintFlow

namespace SortedSet

variable {α : Type} [SortKey α]

@[simp] theorem union_empty (s : SortedSet α) : s ∪ ∅ = s := ext fun a => by simp

@[simp] theorem empty_union (s : SortedSet α) : ∅ ∪ s = s := rfl

theorem union_assoc (s t u : SortedSet α) : s ∪ t ∪ u = s ∪ (t ∪ u) :=
  ext fun a => by simp only [mem_union, or_assoc]

/-- Nothing is missing exactly if the one set is part of the other. -/
theorem isEmpty_diff_iff [DecidableEq α] {s t : SortedSet α} :
    (s \ t).isEmpty = true ↔ s ⊆ t := by
  rw [isEmpty_iff, subset_def]
  constructor
  · intro none a inS
    by_cases inT : a ∈ t
    · exact inT
    · exact absurd (mem_diff.mpr ⟨inS, inT⟩) (none a)
  · intro sub a inDiff
    obtain ⟨inS, notInT⟩ := mem_diff.mp inDiff
    exact notInT (sub a inS)

instance [DecidableEq α] (s t : SortedSet α) : Decidable (s ⊆ t) :=
  decidable_of_iff _ isEmpty_diff_iff

end SortedSet

namespace Value

@[simp] theorem unionLabels_nil : unionLabels [] = ∅ := rfl

@[simp] theorem unionLabels_cons (v : Value) (rest : List Value) :
    unionLabels (v :: rest) = v.labels ∪ unionLabels rest := rfl

theorem unionLabels_append (values more : List Value) :
    unionLabels (values ++ more) = unionLabels values ∪ unionLabels more := by
  induction values with
  | nil => rfl
  | cons v rest ih => simp only [List.cons_append, unionLabels_cons, ih, SortedSet.union_assoc]

/-- A value is tainted if it has a label. -/
theorem isTainted_iff {v : Value} : v.isTainted = true ↔ ∃ label, label ∈ v.labels := by
  unfold isTainted
  rw [Bool.not_eq_true', ← Bool.not_eq_true, SortedSet.isEmpty_iff]
  exact ⟨fun some => Classical.byContradiction fun none =>
    some fun label inside => none ⟨label, inside⟩,
    fun ⟨label, inside⟩ none => none label inside⟩

@[simp] theorem forward_labels (v : Value) : v.forward.labels = v.labels := rfl

@[simp] theorem forward_payload (v : Value) : v.forward.payload = v.payload := rfl

@[simp] theorem forward_hops (v : Value) : v.forward.hops = v.hops + 1 := rfl

end Value

end TaintFlow
