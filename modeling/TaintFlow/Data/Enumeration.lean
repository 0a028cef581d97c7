/-!
# Enumerations with names

A closed set of alternatives, each with one text that stands for it wherever it
is read or written.
-/

namespace TaintFlow

/-- The alternatives of a type, each with its own name. -/
class Enumeration (α : Type) where
  all : List α
  name : α → String
  mem_all : ∀ a, a ∈ all
  name_injective : ∀ a b, name a = name b → a = b

namespace Enumeration

variable {α : Type} [Enumeration α]

/-- The alternative with a given name. -/
def ofName? (text : String) : Option α := all.find? fun a => name a == text

/-- Reading the name of an alternative gives it back. -/
@[simp] theorem ofName?_name (a : α) : ofName? (name a) = some a := by
  have found : (all.find? fun b : α => name b == name a).isSome :=
    List.find?_isSome.mpr ⟨a, mem_all a, by simp⟩
  obtain ⟨b, hb⟩ := Option.isSome_iff_exists.mp found
  have named : name b = name a := by simpa using List.find?_some hb
  rw [ofName?, hb, name_injective b a named]

/-- Only the name of an alternative reads as it. -/
theorem ofName?_eq_some_iff {text : String} {a : α} : ofName? text = some a ↔ text = name a := by
  constructor
  · intro h
    have named : name a = text := by simpa using List.find?_some h
    exact named.symm
  · rintro rfl
    simp

end Enumeration

end TaintFlow
