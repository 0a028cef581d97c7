import TaintFlow.Data.Assoc

/-!
# Tables whose entries are changed

Changing every entry of a table changes what is found under each key, and
nothing else.  Writing and dropping keys never makes a key stand twice.
-/

namespace TaintFlow.Assoc

theorem keys_map {κ α β : Type} (f : α → β) (m : Assoc κ α) :
    keys (m.map fun entry => (entry.1, f entry.2)) = keys m := by
  simp [keys, Function.comp_def]

variable {κ α β : Type} [DecidableEq κ]

/-- What is found in a table whose entries have been changed. -/
theorem find?_map (f : α → β) (key : κ) (m : Assoc κ α) :
    find? key (m.map fun entry => (entry.1, f entry.2)) = (find? key m).map f := by
  induction m with
  | nil => rfl
  | cons entry rest ih =>
      rw [List.map_cons, find?, find?]
      split
      · rfl
      · exact ih

theorem has_map (f : α → β) (key : κ) (m : Assoc κ α) :
    has key (m.map fun entry => (entry.1, f entry.2)) = has key m := by
  unfold has
  rw [find?_map, Option.isSome_map]

theorem find?_append (key : κ) (m more : Assoc κ α) :
    find? key (m ++ more) = (find? key m).or (find? key more) := by
  induction m with
  | nil => rfl
  | cons entry rest ih =>
      rw [List.cons_append, find?, find?]
      split
      · rfl
      · exact ih

theorem has_of_find? {m : Assoc κ α} {key : κ} {found : α} (there : find? key m = some found) :
    has key m = true := by
  unfold has
  rw [there]
  rfl

theorem find?_of_has {m : Assoc κ α} {key : κ} (there : has key m = true) :
    ∃ found, find? key m = some found :=
  Option.isSome_iff_exists.mp there

/-! ## Keys -/

variable {key other : κ} {value : α} {m : Assoc κ α}

theorem mem_keys_put : other ∈ keys (put key value m) ↔ other = key ∨ other ∈ keys m := by
  rw [← has_iff_mem_keys, ← has_iff_mem_keys]
  by_cases same : other = key
  · simp [has, same]
  · simp [has, find?_put_of_ne same, same]

/-- A write adds its key at most once. -/
theorem nodup_keys_put (once : (keys m).Nodup) : (keys (put key value m)).Nodup := by
  induction m with
  | nil => simp [keys, put]
  | cons entry rest ih =>
      have parts := List.nodup_cons.mp once
      by_cases here : entry.1 = key
      · simpa [put, here, keys] using once
      · have fresh : entry.1 ∉ keys (put key value rest) := by
          rw [mem_keys_put]
          exact fun either => either.elim here parts.1
        simpa [put, here, keys] using And.intro fresh (ih parts.2)

/-- A write to a new key adds an entry at the end. -/
theorem put_of_not_mem (absent : key ∉ keys m) (value : α) : put key value m = m ++ [(key, value)] := by
  induction m with
  | nil => rfl
  | cons entry rest ih =>
      obtain ⟨other, later⟩ := not_or.mp (mt List.mem_cons.mpr absent)
      rw [put, if_neg (Ne.symm other), ih later]
      rfl

theorem keys_erase (key : κ) (m : Assoc κ α) :
    keys (erase key m) = (keys m).filter fun other => other ≠ key := by
  induction m with
  | nil => rfl
  | cons entry rest ih =>
      by_cases here : entry.1 = key
      · simpa [erase, here, keys] using ih
      · simpa [erase, here, keys] using ih

/-- Where no key stands twice, an entry is what is found under its key. -/
theorem mem_iff_find? (once : (keys m).Nodup) : (key, value) ∈ m ↔ find? key m = some value := by
  induction m with
  | nil => simp
  | cons entry rest ih =>
      obtain ⟨k, a⟩ := entry
      have parts := List.nodup_cons.mp once
      by_cases here : k = key
      · subst here
        have absent : (k, value) ∉ rest := fun inside =>
          parts.1 (List.mem_map.mpr ⟨_, inside, rfl⟩)
        simp [find?, absent, eq_comm]
      · simp [find?, here, Ne.symm here, ih parts.2]

/-- The order of entries does not matter where no key stands twice. -/
theorem find?_of_perm {m' : Assoc κ α} (once : (keys m).Nodup) (order : m.Perm m') :
    find? key m = find? key m' := by
  have once' : (keys m').Nodup := (order.map Prod.fst).nodup_iff.mp once
  refine Option.ext fun value => ?_
  rw [← mem_iff_find? once, ← mem_iff_find? once', order.mem_iff]

theorem mem_of_mem_put {entry : κ × α} (inside : entry ∈ put key value m) :
    entry = (key, value) ∨ entry ∈ m := by
  induction m with
  | nil => exact .inl (List.mem_singleton.mp inside)
  | cons first rest ih =>
      rw [put] at inside
      split at inside
      · rename_i here
        rcases List.mem_cons.mp inside with same | later
        · exact .inl (here ▸ same)
        · exact .inr (List.mem_cons_of_mem _ later)
      · rcases List.mem_cons.mp inside with same | later
        · exact .inr (same ▸ List.mem_cons_self)
        · exact (ih later).imp_right (List.mem_cons_of_mem _)

theorem mem_of_mem_putAll {entries : List (κ × α)} {entry : κ × α}
    (inside : entry ∈ putAll entries m) : entry ∈ entries ∨ entry ∈ m := by
  induction entries generalizing m with
  | nil => exact .inr inside
  | cons first rest ih =>
      rcases ih inside with later | earlier
      · exact .inl (List.mem_cons_of_mem _ later)
      · refine (mem_of_mem_put earlier).imp_left ?_
        rintro rfl
        exact List.mem_cons_self

theorem mem_of_mem_ofList {entries : List (κ × α)} {entry : κ × α}
    (inside : entry ∈ ofList entries) : entry ∈ entries :=
  (mem_of_mem_putAll inside).resolve_right List.not_mem_nil

/-- What is found after several writes was written by one of them or was there before. -/
theorem mem_or_find?_of_putAll {entries : List (κ × α)}
    (found : find? key (putAll entries m) = some value) :
    (key, value) ∈ entries ∨ find? key m = some value := by
  induction entries generalizing m with
  | nil => exact .inr found
  | cons entry rest ih =>
      rcases ih found with later | earlier
      · exact .inl (List.mem_cons_of_mem _ later)
      · rw [find?_put] at earlier
        split at earlier
        · rename_i here
          obtain rfl := Option.some.inj earlier
          exact .inl (here ▸ List.mem_cons_self)
        · exact .inr earlier

theorem putAll_of_nodup {entries : List (κ × α)} (names : (keys (m ++ entries)).Nodup) :
    putAll entries m = m ++ entries := by
  induction entries generalizing m with
  | nil => exact (List.append_nil m).symm
  | cons entry rest ih =>
      have absent : entry.1 ∉ keys m := by
        intro inside
        unfold keys at names inside
        rw [List.map_append, List.map_cons] at names
        exact (List.nodup_append.mp names).2.2 _ inside _ List.mem_cons_self rfl
      have last : put entry.1 entry.2 m = m ++ [entry] := put_of_not_mem absent entry.2
      show putAll rest (put entry.1 entry.2 m) = _
      rw [last, ih (by rwa [List.append_assoc]), List.append_assoc]
      rfl

/-- A list that names no key twice is a table as it is. -/
theorem ofList_self {entries : List (κ × α)} (names : (keys entries).Nodup) :
    ofList entries = entries := putAll_of_nodup names

theorem length_put_of_mem (there : key ∈ keys m) (value : α) :
    (put key value m).length = m.length := by
  induction m with
  | nil => cases there
  | cons entry rest ih =>
      by_cases here : entry.1 = key
      · rw [put, if_pos here]
        rfl
      · rw [put, if_neg here, List.length_cons, List.length_cons,
          ih ((List.mem_cons.mp there).resolve_left (Ne.symm here))]

theorem length_putAll_le (entries : List (κ × α)) (m : Assoc κ α) :
    (putAll entries m).length ≤ m.length + entries.length := by
  induction entries generalizing m with
  | nil => exact Nat.le_refl _
  | cons entry rest ih =>
      have written : (put entry.1 entry.2 m).length ≤ m.length + 1 := by
        by_cases there : entry.1 ∈ keys m
        · rw [length_put_of_mem there]
          exact Nat.le_succ _
        · rw [put_of_not_mem there, List.length_append]
          exact Nat.le_refl _
      have later := ih (put entry.1 entry.2 m)
      show (putAll rest (put entry.1 entry.2 m)).length ≤ _
      rw [List.length_cons]
      omega

/-- If no entry has been lost, the entries stand behind the table as they are. -/
theorem putAll_of_length {entries : List (κ × α)}
    (all : (putAll entries m).length = m.length + entries.length) :
    putAll entries m = m ++ entries := by
  induction entries generalizing m with
  | nil => exact (List.append_nil m).symm
  | cons entry rest ih =>
      have later := length_putAll_le rest (put entry.1 entry.2 m)
      change (putAll rest (put entry.1 entry.2 m)).length = _ at all
      rw [List.length_cons] at all
      have absent : entry.1 ∉ keys m := by
        intro there
        rw [length_put_of_mem there] at later
        omega
      have last : put entry.1 entry.2 m = m ++ [entry] := put_of_not_mem absent entry.2
      rw [last] at all
      show putAll rest (put entry.1 entry.2 m) = _
      rw [last, ih (by rw [all, List.length_append, List.length_singleton]; omega),
        List.append_assoc]
      rfl

/-- A list of which the table has as many entries is a table as it is. -/
theorem ofList_of_length {entries : List (κ × α)}
    (all : (ofList entries).length = entries.length) : ofList entries = entries :=
  putAll_of_length (all.trans (Nat.zero_add _).symm)

theorem nodup_keys_putAll {entries : List (κ × α)} (once : (keys m).Nodup) :
    (keys (putAll entries m)).Nodup := by
  induction entries generalizing m with
  | nil => exact once
  | cons entry rest ih => exact ih (nodup_keys_put once)

theorem nodup_keys_ofList (entries : List (κ × α)) : (keys (ofList entries)).Nodup :=
  nodup_keys_putAll List.nodup_nil

/-! ## Tables that only grow -/

/-- Whatever is found in one table is found in the other. -/
def Extends (m more : Assoc κ α) : Prop :=
  ∀ key value, find? key m = some value → find? key more = some value

theorem Extends.refl (m : Assoc κ α) : m.Extends m := fun _ _ found => found

theorem Extends.trans {m more most : Assoc κ α} (first : m.Extends more)
    (second : more.Extends most) : m.Extends most :=
  fun key value found => second key value (first key value found)

/-- A write to a free key leaves what is found elsewhere. -/
theorem extends_put (free : has key m = false) (value : α) : m.Extends (put key value m) := by
  intro other old found
  have differs : other ≠ key := by
    rintro rfl
    exact Bool.false_ne_true (free.symm.trans (has_of_find? found))
  rw [find?_put_of_ne differs]
  exact found

end TaintFlow.Assoc
