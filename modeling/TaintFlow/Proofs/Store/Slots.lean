import Mathlib.Data.List.Nodup
import TaintFlow.Store.Basic
import TaintFlow.Proofs.Data.Assoc

/-!
# What edits make of a partition

Whatever an edit does, it does partition by partition and key by key: what stands
at a key afterwards depends on the edit and on what stood there before.  The main
statements are `slots_apply` and `slot?_apply`.
-/

namespace TaintFlow

/-- The partition of a scope is one of that scope, and has the id that was given if the scope needs
one. -/
theorem Scope.partition_eq_ok {scope : Scope} {id : Option String} {p : Partition}
    (place : scope.partition id = .ok p) :
    p.scope = scope ∧ (scope ≠ .process → id = some p.id ∧ p.id ≠ "") := by
  unfold Scope.partition at place
  split at place
  · obtain rfl := Except.ok.inj place
    exact ⟨rfl, fun other => absurd rfl other⟩
  · cases place
  · split at place
    · cases place
    · rename_i named
      obtain rfl := Except.ok.inj place
      exact ⟨rfl, fun _ => ⟨rfl, named⟩⟩

/-- What an edit makes of a partition. -/
def Store.Edit.onSlots (e : Store.Edit) (p : Partition) (slots : Assoc String Slot) :
    Assoc String Slot :=
  match e with
  | .put q key value writtenAt => if q = p then slots.put key (.live value writtenAt) else slots
  | .clear q key =>
    if q = p ∧ (slots.find? key).any Slot.isLive = true then slots.put key .cleared else slots
  | .clearAll q => if q = p then slots.map fun entry => (entry.1, .cleared) else slots
  | .release q => if q = p then [] else slots

/-- What an edit makes of what stands at a key. -/
def Store.Edit.onSlot (e : Store.Edit) (p : Partition) (key : String) (slot : Option Slot) :
    Option Slot :=
  match e with
  | .put q other value writtenAt => if q = p ∧ other = key then some (.live value writtenAt) else slot
  | .clear q other => if q = p ∧ other = key then slot.map fun _ => .cleared else slot
  | .clearAll q => if q = p then slot.map fun _ => .cleared else slot
  | .release q => if q = p then none else slot

/-- The partition that an edit changes. -/
def Store.Edit.partition : Store.Edit → Partition
  | .put p .. => p
  | .clear p _ => p
  | .clearAll p => p
  | .release p => p

namespace Store

variable {s : Store} {p q : Partition}

theorem slots_put (slots : Assoc String Slot) :
    Store.slots ⟨s.partitions.put q slots⟩ p = if q = p then slots else s.slots p := by
  unfold Store.slots
  by_cases same : q = p
  · subst same
    rw [if_pos rfl, Assoc.find?_put_self]
    rfl
  · rw [if_neg same, Assoc.find?_put_of_ne (Ne.symm same)]

/-- An edit changes each partition for itself. -/
theorem slots_apply (s : Store) (e : Edit) (p : Partition) :
    (s.apply e).slots p = e.onSlots p (s.slots p) := by
  cases e with
  | put q key value writtenAt =>
      refine (slots_put _).trans ?_
      show _ = if q = p then _ else _
      split
      · rename_i same
        rw [same]
      · rfl
  | clear q key =>
      show (s.clear q key).slots p = if q = p ∧ _ then _ else _
      unfold clear isLive slot?
      split
      · rename_i live
        refine (slots_put _).trans ?_
        split
        · rename_i same
          subst same
          rw [if_pos ⟨rfl, live⟩]
        · rename_i other
          rw [if_neg fun both => other both.1]
      · rename_i dead
        refine (if_neg ?_).symm
        rintro ⟨rfl, live⟩
        exact dead live
  | clearAll q =>
      show (s.clearAll q).slots p = if q = p then _ else _
      unfold clearAll
      split
      · rename_i empty
        split
        · rename_i same
          subst same
          rw [List.isEmpty_iff.mp empty]
          rfl
        · rfl
      · refine (slots_put _).trans ?_
        split
        · rename_i same
          rw [same]
        · rfl
  | release q =>
      show (s.release q).slots p = if q = p then _ else _
      unfold release slots
      by_cases same : q = p
      · subst same
        rw [if_pos rfl, Assoc.find?_erase_self]
        rfl
      · rw [if_neg same, Assoc.find?_erase_of_ne (Ne.symm same)]

/-- What an edit makes of a key in a partition. -/
theorem find?_onSlots (e : Edit) (p : Partition) (key : String) (slots : Assoc String Slot) :
    (e.onSlots p slots).find? key = e.onSlot p key (slots.find? key) := by
  cases e with
  | put q other value writtenAt =>
      unfold Edit.onSlots Edit.onSlot
      dsimp only
      by_cases same : q = p
      · rw [if_pos same, Assoc.find?_put]
        simp only [same, true_and, eq_comm]
      · rw [if_neg same, if_neg fun both => same both.1]
  | clear q other =>
      unfold Edit.onSlots Edit.onSlot
      dsimp only
      by_cases here : q = p ∧ other = key
      · obtain ⟨rfl, rfl⟩ := here
        simp only [true_and, if_true]
        cases at_ : slots.find? other with
        | none => simp [at_]
        | some slot =>
            cases slot with
            | live value writtenAt => simp [Slot.isLive]
            | cleared => simp [at_, Slot.isLive]
      · rw [if_neg here]
        split
        · rename_i live
          exact Assoc.find?_put_of_ne (fun same => here ⟨live.1, same.symm⟩) _ _
        · rfl
  | clearAll q =>
      unfold Edit.onSlots Edit.onSlot
      dsimp only
      split
      · exact Assoc.find?_map (fun _ => Slot.cleared) key slots
      · rfl
  | release q =>
      unfold Edit.onSlots Edit.onSlot
      dsimp only
      split
      · rfl
      · rfl

/-- An edit changes each key for itself. -/
theorem slot?_apply (s : Store) (e : Edit) (p : Partition) (key : String) :
    (s.apply e).slot? p key = e.onSlot p key (s.slot? p key) := by
  unfold slot?
  rw [slots_apply, find?_onSlots]

/-- An edit leaves the other partitions alone. -/
theorem slots_apply_of_ne (s : Store) {e : Edit} (other : e.partition ≠ p) :
    (s.apply e).slots p = s.slots p := by
  rw [slots_apply]
  cases e with
  | put q key value writtenAt => exact if_neg other
  | clear q key => exact if_neg fun both => other both.1
  | clearAll q => exact if_neg other
  | release q => exact if_neg other

/-- An edit neither makes nor drops another partition. -/
theorem find?_apply_of_ne (s : Store) {e : Edit} (other : e.partition ≠ p) :
    (s.apply e).partitions.find? p = s.partitions.find? p := by
  cases e with
  | put q key value writtenAt => exact Assoc.find?_put_of_ne (Ne.symm other) _ _
  | clear q key =>
      show (s.clear q key).partitions.find? p = _
      unfold clear
      split
      · exact Assoc.find?_put_of_ne (Ne.symm other) _ _
      · rfl
  | clearAll q =>
      show (s.clearAll q).partitions.find? p = _
      unfold clearAll
      split
      · rfl
      · exact Assoc.find?_put_of_ne (Ne.symm other) _ _
  | release q => exact Assoc.find?_erase_of_ne (Ne.symm other) _

theorem find?_applyAll_of_ne (s : Store) {edits : List Edit}
    (others : ∀ e ∈ edits, e.partition ≠ p) :
    (s.applyAll edits).partitions.find? p = s.partitions.find? p := by
  induction edits generalizing s with
  | nil => rfl
  | cons e rest ih =>
      calc (s.applyAll (e :: rest)).partitions.find? p
          = (s.apply e).partitions.find? p :=
            ih (s.apply e) fun one inside => others one (List.mem_cons_of_mem e inside)
        _ = s.partitions.find? p := find?_apply_of_ne s (others e List.mem_cons_self)

theorem applyAll_append (s : Store) (edits more : List Edit) :
    s.applyAll (edits ++ more) = (s.applyAll edits).applyAll more :=
  List.foldl_append

/-- Edits of other partitions leave a partition alone. -/
theorem slots_applyAll_of_ne (s : Store) {edits : List Edit}
    (others : ∀ e ∈ edits, e.partition ≠ p) : (s.applyAll edits).slots p = s.slots p := by
  induction edits generalizing s with
  | nil => rfl
  | cons e rest ih =>
      calc (s.applyAll (e :: rest)).slots p
          = (s.apply e).slots p :=
            ih (s.apply e) fun one inside => others one (List.mem_cons_of_mem e inside)
        _ = s.slots p := slots_apply_of_ne s (others e List.mem_cons_self)

/-- The same edits of the same slots make the same of them. -/
theorem slots_applyAll_congr {s s' : Store} (same : s.slots p = s'.slots p) (edits : List Edit) :
    (s.applyAll edits).slots p = (s'.applyAll edits).slots p := by
  induction edits generalizing s s' with
  | nil => exact same
  | cons e rest ih =>
      have step : (s.apply e).slots p = (s'.apply e).slots p := by
        rw [slots_apply, slots_apply, same]
      exact ih step

end Store

/-!
## What a store lists

No partition stands twice in a store and no key twice in a partition, and a
partition that is there is not empty.  Every edit keeps a store so.  What a
store lists is therefore strictly increasing: the keys that have a value, and
the partitions in which a key is known.
-/

namespace Store

variable {s : Store} {p : Partition} {key : String}

/-! ### Orderly stores -/

/-- A store without repeated or empty partitions, and without repeated keys. -/
structure Orderly (s : Store) : Prop where
  once : s.partitions.keys.Nodup
  filled : ∀ {p slots}, s.partitions.find? p = some slots → slots.keys.Nodup ∧ slots ≠ []

theorem orderly_empty : Orderly {} := ⟨List.nodup_nil, nofun⟩

theorem Orderly.slots (orderly : s.Orderly) (p : Partition) : (s.slots p).keys.Nodup := by
  unfold Store.slots
  cases found : s.partitions.find? p with
  | none => exact List.nodup_nil
  | some slots => exact (orderly.filled found).1

/-- An orderly store stays so with other slots in a partition. -/
theorem Orderly.put (orderly : s.Orderly) {slots : Assoc String Slot} (once : slots.keys.Nodup)
    (some_ : slots ≠ []) : Orderly ⟨s.partitions.put p slots⟩ where
  once := Assoc.nodup_keys_put orderly.once
  filled := by
    intro q others found
    by_cases same : q = p
    · rw [same, Assoc.find?_put_self] at found
      obtain rfl := Option.some.inj found
      exact ⟨once, some_⟩
    · rw [Assoc.find?_put_of_ne same] at found
      exact orderly.filled found

/-- An orderly store stays so without a partition. -/
theorem Orderly.release (orderly : s.Orderly) (p : Partition) : (s.release p).Orderly where
  once := by
    unfold Store.release
    rw [Assoc.keys_erase]
    exact orderly.once.filter _
  filled := by
    intro q slots found
    unfold Store.release at found
    by_cases same : q = p
    · simp [same] at found
    · rw [Assoc.find?_erase_of_ne same] at found
      exact orderly.filled found

theorem put_ne_nil (key : String) (slot : Slot) (slots : Assoc String Slot) :
    slots.put key slot ≠ [] := by
  intro empty
  simpa [empty] using Assoc.find?_put_self key slot slots

/-- Every edit keeps a store orderly. -/
theorem Orderly.apply (orderly : s.Orderly) (e : Edit) : (s.apply e).Orderly := by
  cases e with
  | put q key value writtenAt =>
      exact orderly.put (Assoc.nodup_keys_put (orderly.slots q)) (put_ne_nil _ _ _)
  | clear q key =>
      show (s.clear q key).Orderly
      unfold clear
      split
      · exact orderly.put (Assoc.nodup_keys_put (orderly.slots q)) (put_ne_nil _ _ _)
      · exact orderly
  | clearAll q =>
      show (s.clearAll q).Orderly
      unfold clearAll
      split
      · exact orderly
      · rename_i filled
        refine orderly.put ?_ ?_
        · show (Assoc.keys ((s.slots q).map fun entry => (entry.1, Slot.cleared))).Nodup
          rw [Assoc.keys_map fun _ => Slot.cleared]
          exact orderly.slots q
        · simpa using filled
  | release q => exact orderly.release q

theorem Orderly.applyAll (orderly : s.Orderly) (edits : List Edit) : (s.applyAll edits).Orderly := by
  induction edits generalizing s with
  | nil => exact orderly
  | cons e rest ih => exact ih (orderly.apply e)

/-- A partition is there if a key is known in it. -/
theorem Orderly.has_iff (orderly : s.Orderly) :
    s.partitions.has p = true ↔ ∃ key, (s.slot? p key).isSome = true := by
  unfold slot? Store.slots
  cases found : s.partitions.find? p with
  | none => simp [Assoc.has, found]
  | some slots =>
      have some_ := (orderly.filled found).2
      obtain ⟨entry, rest, rfl⟩ := List.exists_cons_of_ne_nil some_
      have first : Assoc.find? entry.1 (entry :: rest) = some entry.2 := by simp [Assoc.find?]
      simp only [Assoc.has, found, Option.isSome_some, Option.getD_some, true_iff]
      exact ⟨entry.1, by rw [first]; rfl⟩

/-! ### Listings -/

/-- A list of texts is the listing of a property: strictly increasing, with the texts that have it. -/
def Lists (holds : String → Prop) (texts : List String) : Prop :=
  texts.Pairwise (· < ·) ∧ ∀ text, text ∈ texts ↔ holds text

theorem filterMap_ite {α β : Type} (c : α → Bool) (f : α → β) (l : List α) :
    (l.filterMap fun a => if c a then some (f a) else none) = (l.filter c).map f := by
  induction l with
  | nil => rfl
  | cons a rest ih => cases test : c a <;> simp [test, ih]

/-- Texts that do not repeat are strictly increasing when they have been sorted. -/
theorem lists_sortTexts {texts : List String} (once : texts.Nodup) :
    Lists (· ∈ texts) (sortTexts texts) := by
  have perm : (sortTexts texts).Perm texts := List.mergeSort_perm texts _
  have ordered : ∀ a b : String, (!decide (b < a)) = true ↔ a ≤ b := by
    intro a b
    rw [Bool.not_eq_true', decide_eq_false_iff_not]
    exact String.not_lt
  have weak : (sortTexts texts).Pairwise fun a b => (!decide (b < a)) = true := by
    refine List.pairwise_mergeSort (fun a b c first second => ?_) (fun a b => ?_) texts
    · exact (ordered a c).mpr (String.le_trans ((ordered a b).mp first) ((ordered b c).mp second))
    · rw [Bool.or_eq_true]
      exact (String.le_total a b).imp (ordered a b).mpr (ordered b a).mpr
  constructor
  · refine (weak.and (perm.nodup_iff.mpr once)).imp fun {a b} both => ?_
    exact Classical.byContradiction fun notLess =>
      both.2 (String.le_antisymm ((ordered a b).mp both.1) (String.not_lt.mp notLess))
  · exact fun text => perm.mem_iff

/-- The keys that are listed in a partition are those that have a value there. -/
theorem lists_keys (orderly : s.Orderly) (p : Partition) :
    Lists (fun key => s.isLive p key = true) (s.keys p) := by
  have listed : s.keys p =
      sortTexts (((s.slots p).filter fun entry => entry.2.isLive).map Prod.fst) :=
    congrArg sortTexts (filterMap_ite (fun entry => entry.2.isLive) Prod.fst (s.slots p))
  have once : (((s.slots p).filter fun entry => entry.2.isLive).map Prod.fst).Nodup :=
    (orderly.slots p).sublist (List.filter_sublist.map Prod.fst)
  rw [listed]
  refine ⟨(lists_sortTexts once).1, fun key => ((lists_sortTexts once).2 key).trans ?_⟩
  unfold isLive slot?
  simp [Assoc.mem_iff_find? (orderly.slots p), Option.any_eq_true]

/-- As many keys are listed as there are values. -/
theorem length_keys (s : Store) (p : Partition) : (s.keys p).length = s.liveCount p := by
  have same := filterMap_ite (fun entry : String × Slot => entry.2.isLive) Prod.fst (s.slots p)
  unfold keys sortTexts liveCount
  rw [List.length_mergeSort, same, List.length_map, List.countP_eq_length_filter]

/-- The partitions that are listed for a scope are those in which a key is known. -/
theorem lists_partitionIds (orderly : s.Orderly) (scope : Scope) :
    Lists (fun id => ∃ key, (s.slot? ⟨scope, id⟩ key).isSome = true) (s.partitionIds scope) := by
  have listed : s.partitionIds scope =
      sortTexts (((s.partitions.keys).filter fun p => p.scope = scope).map Partition.id) := by
    have same := filterMap_ite (fun entry : Partition × Assoc String Slot =>
      decide (entry.1.scope = scope)) (fun entry => entry.1.id) s.partitions
    simp only [decide_eq_true_eq] at same
    refine (congrArg sortTexts same).trans (congrArg sortTexts ?_)
    simp [Assoc.keys, List.filter_map, Function.comp_def]
  have once : (((s.partitions.keys).filter fun p => p.scope = scope).map Partition.id).Nodup := by
    refine (orderly.once.filter _).map_on ?_
    intro p inP q inQ same
    have scopes : p.scope = q.scope := by
      simp only [List.mem_filter, decide_eq_true_eq] at inP inQ
      exact inP.2.trans inQ.2.symm
    cases p
    cases q
    simp_all
  rw [listed]
  refine ⟨(lists_sortTexts once).1, fun id => ((lists_sortTexts once).2 id).trans ?_⟩
  show id ∈ _ ↔ ∃ key, _
  rw [← orderly.has_iff, Assoc.has_iff_mem_keys]
  simp only [List.mem_map, List.mem_filter, decide_eq_true_eq]
  constructor
  · rintro ⟨p, ⟨inside, rfl⟩, rfl⟩
    exact inside
  · exact fun inside => ⟨⟨scope, id⟩, ⟨inside, rfl⟩, rfl⟩

end Store

end TaintFlow
