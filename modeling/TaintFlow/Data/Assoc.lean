/-!
# Insertion-ordered maps

A map is the list of its entries in the order in which their keys first came
in.  Writing to a key that is there keeps its place.  The main statements are
`find?_put_self` and `find?_put_of_ne`, which say what a write does to look-ups,
and `find?_erase_self`.
-/

namespace TaintFlow

/-- A map as the list of its entries, oldest key first. -/
abbrev Assoc (κ α : Type) := List (κ × α)

namespace Assoc

variable {κ α : Type} [DecidableEq κ]

/-- The value at a key. -/
def find? (key : κ) : Assoc κ α → Option α
  | [] => none
  | (k, a) :: rest => if k = key then some a else find? key rest

/-- Is there a value at the key? -/
def has (key : κ) (m : Assoc κ α) : Bool := (find? key m).isSome

/-- Write a value; a key that is there keeps its place. -/
def put (key : κ) (value : α) : Assoc κ α → Assoc κ α
  | [] => [(key, value)]
  | (k, a) :: rest => if k = key then (k, value) :: rest else (k, a) :: put key value rest

/-- Drop a key. -/
def erase (key : κ) : Assoc κ α → Assoc κ α
  | [] => []
  | (k, a) :: rest => if k = key then erase key rest else (k, a) :: erase key rest

/-- Write several entries, one after the other. -/
def putAll (entries : List (κ × α)) (m : Assoc κ α) : Assoc κ α :=
  entries.foldl (fun m (k, a) => put k a m) m

/-- The map of a list of entries; of two entries with one key the later value stays. -/
def ofList (entries : List (κ × α)) : Assoc κ α := putAll entries []

/-- The keys, oldest first. -/
def keys (m : Assoc κ α) : List κ := m.map Prod.fst

@[simp] theorem find?_nil (key : κ) : find? key ([] : Assoc κ α) = none := rfl

@[simp] theorem find?_put_self (key : κ) (value : α) (m : Assoc κ α) :
    find? key (put key value m) = some value := by
  induction m with
  | nil => simp [put, find?]
  | cons entry rest ih =>
    by_cases h : entry.1 = key <;> simp [put, find?, h, ih]

theorem find?_put_of_ne {key other : κ} (h : other ≠ key) (value : α) (m : Assoc κ α) :
    find? other (put key value m) = find? other m := by
  induction m with
  | nil => simp [put, find?, Ne.symm h]
  | cons entry rest ih =>
    by_cases hk : entry.1 = key
    · have ho : entry.1 ≠ other := fun e => h (e.symm.trans hk)
      simp [put, find?, hk, Ne.symm h]
    · by_cases ho : entry.1 = other <;> simp [put, find?, hk, ho, h, ih]

/-- A write is seen at its key and nowhere else. -/
theorem find?_put (key other : κ) (value : α) (m : Assoc κ α) :
    find? other (put key value m) = if other = key then some value else find? other m := by
  by_cases h : other = key
  · simp [h]
  · simp [h, find?_put_of_ne h]

@[simp] theorem find?_erase_self (key : κ) (m : Assoc κ α) : find? key (erase key m) = none := by
  induction m with
  | nil => rfl
  | cons entry rest ih => by_cases h : entry.1 = key <;> simp [erase, find?, h, ih]

theorem find?_erase_of_ne {key other : κ} (h : other ≠ key) (m : Assoc κ α) :
    find? other (erase key m) = find? other m := by
  induction m with
  | nil => rfl
  | cons entry rest ih =>
    by_cases hk : entry.1 = key
    · have ho : entry.1 ≠ other := fun e => h (e.symm.trans hk)
      simp [erase, find?, hk, Ne.symm h, ih]
    · by_cases ho : entry.1 = other <;> simp [erase, find?, hk, ho, h, ih]

theorem has_iff_mem_keys {key : κ} {m : Assoc κ α} : has key m = true ↔ key ∈ keys m := by
  induction m with
  | nil => simp [has, keys]
  | cons entry rest ih =>
    by_cases h : entry.1 = key
    · simp [has, keys, find?, h]
    · have hne : key ≠ entry.1 := fun e => h e.symm
      simpa [has, keys, find?, h, hne] using ih

end Assoc

end TaintFlow
