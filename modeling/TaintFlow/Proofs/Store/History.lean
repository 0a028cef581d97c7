import Mathlib.Data.List.Induction
import TaintFlow.Proofs.Store.Slots

/-!
# A store as its history

What stands at a key of a store that began empty is told by the edits that have
been made since.  A value stands there if it was put and nothing has touched the
key since; a mark stands there if a known key has been cleared since it was last
put; and nothing is known of a key that was not put since its partition was last
released.  The main statement is `slot?_history`.
-/

namespace TaintFlow.Store

variable {p : Partition} {key : String} {value : Value} {writtenAt : Int} {e : Edit}
  {edits : List Edit}

/-! ## What an edit does to a key -/

/-- The edit puts a value at the key. -/
def Edit.Puts (e : Edit) (p : Partition) (key : String) : Prop :=
  ∃ value writtenAt, e = .put p key value writtenAt

/-- The edit clears the key, by itself or with its whole partition. -/
def Edit.Wipes (e : Edit) (p : Partition) (key : String) : Prop := e = .clear p key ∨ e = .clearAll p

theorem Edit.onSlot_of_wipes (wipes : e.Wipes p key) (slot : Option Slot) :
    e.onSlot p key slot = slot.map fun _ => .cleared := by
  rcases wipes with rfl | rfl
  · simp [onSlot]
  · simp [onSlot]

/-- An edit of any other kind leaves the key alone. -/
theorem Edit.onSlot_of_other (notPut : ¬ e.Puts p key) (notWiped : ¬ e.Wipes p key)
    (kept : e ≠ .release p) (slot : Option Slot) : e.onSlot p key slot = slot := by
  cases e with
  | put q other value writtenAt =>
      refine if_neg ?_
      rintro ⟨rfl, rfl⟩
      exact notPut ⟨value, writtenAt, rfl⟩
  | clear q other =>
      refine if_neg ?_
      rintro ⟨rfl, rfl⟩
      exact notWiped (.inl rfl)
  | clearAll q =>
      refine if_neg ?_
      rintro rfl
      exact notWiped (.inr rfl)
  | release q =>
      refine if_neg ?_
      rintro rfl
      exact kept rfl

/-- What stands at a key after an edit that puts nothing there stood there before. -/
theorem live_of_apply {s : Store} (notPut : ¬ e.Puts p key)
    (live : (s.apply e).slot? p key = some (.live value writtenAt)) :
    s.slot? p key = some (.live value writtenAt) := by
  rw [slot?_apply] at live
  by_cases wipes : e.Wipes p key
  · rw [Edit.onSlot_of_wipes wipes] at live
    cases here : s.slot? p key with
    | none =>
        rw [here] at live
        cases live
    | some slot =>
        rw [here] at live
        cases live
  · by_cases released : e = .release p
    · rw [released] at live
      simp [Edit.onSlot] at live
    · rwa [Edit.onSlot_of_other notPut wipes released] at live

theorem live_of_applyAll {s : Store} (notPut : ∀ e ∈ edits, ¬ e.Puts p key)
    (live : (s.applyAll edits).slot? p key = some (.live value writtenAt)) :
    s.slot? p key = some (.live value writtenAt) := by
  induction edits generalizing s with
  | nil => exact live
  | cons e rest ih =>
      have later := ih (fun one inside => notPut one (List.mem_cons_of_mem e inside)) live
      exact live_of_apply (notPut e List.mem_cons_self) later

/-! ## Histories -/

/-- An edit of one kind has been made, after edits that may matter, and ever since all edits have
been of another kind. -/
def Since (begins : List Edit → Edit → Prop) (lasts : Edit → Prop) (edits : List Edit) : Prop :=
  ∃ before e after, edits = before ++ e :: after ∧ begins before e ∧ ∀ later ∈ after, lasts later

/-- The key has been put since its partition was last released. -/
def Known (edits : List Edit) (p : Partition) (key : String) : Prop :=
  Since (fun _ e => e.Puts p key) (fun e => e ≠ .release p) edits

/-- The value is the last that was put at the key, and the key has neither been cleared nor released
with its partition since. -/
def Stands (edits : List Edit) (p : Partition) (key : String) (value : Value) (writtenAt : Int) :
    Prop :=
  Since (fun _ e => e = .put p key value writtenAt)
    (fun e => ¬ e.Puts p key ∧ ¬ e.Wipes p key ∧ e ≠ .release p) edits

/-- A put of the key since the last release of its partition was followed by a clear of it, and it has
not been put since. -/
def Wiped (edits : List Edit) (p : Partition) (key : String) : Prop :=
  Since (fun before e => e.Wipes p key ∧ Known before p key)
    (fun e => ¬ e.Puts p key ∧ e ≠ .release p) edits

theorem not_since_nil {begins : List Edit → Edit → Prop} {lasts : Edit → Prop} :
    ¬ Since begins lasts [] := by
  rintro ⟨before, e, after, same, _⟩
  simp at same

/-- The last edit begins what lasts, or it leaves what has lasted so far. -/
theorem since_concat {begins : List Edit → Edit → Prop} {lasts : Edit → Prop} :
    Since begins lasts (edits ++ [e]) ↔ begins edits e ∨ Since begins lasts edits ∧ lasts e := by
  constructor
  · rintro ⟨before, first, after, same, begun, lasted⟩
    rcases List.eq_nil_or_concat after with rfl | ⟨between, last, rfl⟩
    · obtain ⟨rfl, here⟩ := List.append_inj' same rfl
      obtain rfl := List.singleton_inj.mp here
      exact .inl begun
    · simp only [List.concat_eq_append, ← List.cons_append, ← List.append_assoc] at same lasted
      obtain ⟨rfl, here⟩ := List.append_inj' same rfl
      obtain rfl := List.singleton_inj.mp here
      exact .inr ⟨⟨before, first, between, rfl, begun, fun later inside =>
        lasted later (by simp [inside])⟩, lasted e (by simp)⟩
  · rintro (begun | ⟨⟨before, first, after, rfl, begun, lasted⟩, last⟩)
    · exact ⟨edits, e, [], rfl, begun, nofun⟩
    · refine ⟨before, first, after ++ [e], by simp, begun, fun later inside => ?_⟩
      rcases List.mem_append.mp inside with between | here
      · exact lasted later between
      · rwa [List.mem_singleton.mp here]

theorem known_concat :
    Known (edits ++ [e]) p key ↔ e.Puts p key ∨ Known edits p key ∧ e ≠ .release p :=
  since_concat

theorem stands_concat :
    Stands (edits ++ [e]) p key value writtenAt ↔ e = .put p key value writtenAt ∨
      Stands edits p key value writtenAt ∧ ¬ e.Puts p key ∧ ¬ e.Wipes p key ∧ e ≠ .release p :=
  since_concat

theorem wiped_concat :
    Wiped (edits ++ [e]) p key ↔ (e.Wipes p key ∧ Known edits p key) ∨
      Wiped edits p key ∧ ¬ e.Puts p key ∧ e ≠ .release p :=
  since_concat

/-! ## What is found -/

/-- What is found at a key of a store is what its history says. -/
structure Tells (edits : List Edit) (p : Partition) (key : String) (slot : Option Slot) : Prop where
  live : ∀ value writtenAt, slot = some (.live value writtenAt) ↔ Stands edits p key value writtenAt
  cleared : slot = some .cleared ↔ Wiped edits p key
  known : slot.isSome = true ↔ Known edits p key

namespace Tells

variable {slot : Option Slot}

theorem known_of_wiped (tells : Tells edits p key slot) (wiped : Wiped edits p key) :
    Known edits p key := by
  rw [← tells.known, tells.cleared.mpr wiped]
  rfl

theorem put (value : Value) (writtenAt : Int) :
    Tells (edits ++ [.put p key value writtenAt]) p key (some (.live value writtenAt)) where
  live := by
    intro other at_
    simp [stands_concat, Edit.Puts]
  cleared := by simp [wiped_concat, Edit.Puts, Edit.Wipes]
  known := by simp [known_concat, Edit.Puts]

theorem wipe (tells : Tells edits p key slot) (wipes : e.Wipes p key) :
    Tells (edits ++ [e]) p key (slot.map fun _ => .cleared) := by
  have notPut : ¬ e.Puts p key := by
    rcases wipes with rfl | rfl
    · simp [Edit.Puts]
    · simp [Edit.Puts]
  have kept : e ≠ .release p := by
    rcases wipes with rfl | rfl
    · simp
    · simp
  refine ⟨fun value writtenAt => ?_, ?_, ?_⟩
  · have other : e ≠ .put p key value writtenAt := fun same => notPut ⟨value, writtenAt, same⟩
    simp [stands_concat, wipes, other]
  · have known : (slot.map fun _ => Slot.cleared) = some .cleared ↔ Known edits p key := by
      simp [← tells.known, Option.isSome_iff_exists]
    rw [known, wiped_concat]
    exact ⟨fun known => .inl ⟨wipes, known⟩,
      fun either => either.elim And.right fun both => tells.known_of_wiped both.1⟩
  · simp [known_concat, notPut, kept, ← tells.known]

theorem release : Tells (edits ++ [.release p]) p key none where
  live := by simp [stands_concat]
  cleared := by simp [wiped_concat, Edit.Wipes]
  known := by simp [known_concat, Edit.Puts]

/-- One more edit changes what the history says of a key as it changes the key. -/
theorem concat (tells : Tells edits p key slot) (e : Edit) :
    Tells (edits ++ [e]) p key (e.onSlot p key slot) := by
  by_cases puts : e.Puts p key
  · obtain ⟨value, writtenAt, rfl⟩ := puts
    simpa [Edit.onSlot] using put value writtenAt
  · by_cases wipes : e.Wipes p key
    · rw [Edit.onSlot_of_wipes wipes]
      exact tells.wipe wipes
    · by_cases released : e = .release p
      · subst released
        simpa [Edit.onSlot] using release
      · rw [Edit.onSlot_of_other puts wipes released]
        refine ⟨fun value writtenAt => ?_, ?_, ?_⟩
        · have other : e ≠ .put p key value writtenAt := fun same => puts ⟨value, writtenAt, same⟩
          simp [stands_concat, tells.live, puts, wipes, released, other]
        · simp [wiped_concat, tells.cleared, puts, wipes, released]
        · simp [known_concat, tells.known, puts, released]

end Tells

/-- **A store is what its history says.** -/
theorem slot?_history (edits : List Edit) (p : Partition) (key : String) :
    Tells edits p key ((({} : Store).applyAll edits).slot? p key) := by
  induction edits using List.reverseRecOn with
  | nil =>
      refine ⟨fun value writtenAt => ?_, ?_, ?_⟩
      · exact ⟨nofun, fun stands => absurd stands not_since_nil⟩
      · exact ⟨nofun, fun wiped => absurd wiped not_since_nil⟩
      · exact ⟨nofun, fun known => absurd known not_since_nil⟩
  | append_singleton edits e ih =>
      rw [applyAll_append]
      show Tells _ p key (((({} : Store).applyAll edits).apply e).slot? p key)
      rw [slot?_apply]
      exact ih.concat e

end TaintFlow.Store
