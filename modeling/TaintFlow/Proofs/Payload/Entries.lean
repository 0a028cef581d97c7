import TaintFlow.Proofs.Payload.Reading

/-!
# Keys of mappings

What writes into a mapping do to lookups of texts, and to the keys, of which no
text comes twice; and what stands at a path of keys.
-/

namespace TaintFlow.Payload

/-- A text has the meaning of a key exactly if it is this key. -/
theorem text_same_iff {key : Payload} {s : String} : (text s).same key = true ↔ key = .text s := by
  cases key with
  | text t =>
      rw [same, beq_iff_eq, text.injEq]
      exact eq_comm
  | _ => simp [same]

namespace Entries

variable {α β : Type} {key : String} {k : Payload} {value : α} {m : List (Payload × α)}

/-! ## Lookups -/

theorem text?_nil : text? key ([] : List (Payload × α)) = none := rfl

theorem text?_put_self : text? key (put (.text key) value m) = some value := by
  induction m with
  | nil =>
      rw [put, text?_cons, if_pos rfl]
  | cons entry rest ih =>
      rw [put]
      split
      · rename_i here
        rw [text?_cons, if_pos (same_text_iff.mp here)]
      · rename_i apart
        rw [text?_cons, if_neg (mt same_text_iff.mpr apart), ih]

theorem text?_put_of_ne (differs : k ≠ .text key) : text? key (put k value m) = text? key m := by
  induction m with
  | nil => rw [put, text?_cons, if_neg differs]
  | cons entry rest ih =>
      rw [put]
      split
      · rename_i here
        have other : entry.1 ≠ .text key := fun same =>
          differs (text_same_iff.mp (same ▸ here))
        rw [text?_cons, text?_cons, if_neg other, if_neg other]
      · rw [text?_cons, text?_cons, ih]

theorem text?_mem (found : text? key m = some value) : (.text key, value) ∈ m := by
  induction m with
  | nil => cases found
  | cons entry rest ih =>
      rw [text?_cons] at found
      split at found
      · rename_i here
        cases found
        exact here ▸ List.mem_cons_self
      · exact List.mem_cons_of_mem _ (ih found)

theorem mem_put {entry : Payload × α} (inside : entry ∈ put k value m) :
    entry ∈ m ∨ entry.2 = value := by
  induction m with
  | nil => exact .inr (List.mem_singleton.mp inside ▸ rfl)
  | cons first rest ih =>
      rw [put] at inside
      split at inside
      · obtain rfl | later := List.mem_cons.mp inside
        · exact .inr rfl
        · exact .inl (List.mem_cons_of_mem _ later)
      · obtain rfl | later := List.mem_cons.mp inside
        · exact .inl List.mem_cons_self
        · exact (ih later).imp_left (List.mem_cons_of_mem _)

theorem text?_map_values (f : α → β) :
    text? key (m.map fun (k, v) => (k, f v)) = (text? key m).map f := by
  induction m with
  | nil => rfl
  | cons entry rest ih =>
      obtain ⟨k, v⟩ := entry
      rw [List.map_cons, text?_cons, text?_cons, ih]
      by_cases here : k = .text key
      · rw [if_pos here, if_pos here]
        rfl
      · rw [if_neg here, if_neg here]

/-! ## Keys -/

/-- A write keeps the keys, or adds its own behind those that have another meaning. -/
theorem keys_put (k : Payload) (value : α) (m : List (Payload × α)) :
    (put k value m).map Prod.fst = m.map Prod.fst ∨
    (put k value m).map Prod.fst = m.map Prod.fst ++ [k] ∧
      ∀ other ∈ m.map Prod.fst, other.same k = false := by
  induction m with
  | nil => exact .inr ⟨rfl, fun _ inside => absurd inside List.not_mem_nil⟩
  | cons entry rest ih =>
      rw [put]
      split
      · exact .inl rfl
      · rename_i apart
        obtain same | ⟨added, others⟩ := ih
        · exact .inl (congrArg (entry.1 :: ·) same)
        · exact .inr ⟨congrArg (entry.1 :: ·) added,
            List.forall_mem_cons.mpr ⟨eq_false_of_ne_true apart, others⟩⟩

theorem mem_keys_put {other : Payload} (inside : other ∈ (put k value m).map Prod.fst) :
    other ∈ m.map Prod.fst ∨ other = k := by
  obtain same | ⟨added, _⟩ := keys_put k value m
  · exact .inl (same ▸ inside)
  · rw [added] at inside
    exact (List.mem_append.mp inside).imp_right List.mem_singleton.mp

/-- No text is the key of two entries. -/
def Distinct (m : List (Payload × α)) : Prop :=
  (m.map Prod.fst).Pairwise fun k other => ∀ key, k = .text key → other ≠ .text key

theorem distinct_nil : Distinct ([] : List (Payload × α)) := .nil

theorem Distinct.put (distinct : Distinct m) : Distinct (put k value m) := by
  unfold Distinct
  obtain same | ⟨added, others⟩ := keys_put k value m
  · rwa [same]
  · rw [added]
    refine List.pairwise_append.mpr ⟨distinct, List.pairwise_singleton _ _, ?_⟩
    intro other inside k' last key here there
    obtain rfl := List.mem_singleton.mp last
    have alike : other.same k' = true := there ▸ same_text_iff.mpr here
    rw [others other inside] at alike
    cases alike

theorem distinct_ofList (entries : List (Payload × α)) : Distinct (ofList entries) := by
  have fold (m : List (Payload × α)) (start : Distinct m) : Distinct (merge m entries) := by
    unfold merge
    induction entries generalizing m with
    | nil => exact start
    | cons first rest ih => exact ih _ start.put
  exact fold [] distinct_nil

/-- No key has the meaning of one before it. -/
def Apart (m : List (Payload × α)) : Prop :=
  (m.map Prod.fst).Pairwise fun k other => k.same other = false

theorem apart_nil : Apart ([] : List (Payload × α)) := .nil

theorem Apart.put (apart : Apart m) : Apart (put k value m) := by
  unfold Apart
  obtain same | ⟨added, others⟩ := keys_put k value m
  · rwa [same]
  · rw [added]
    refine List.pairwise_append.mpr ⟨apart, List.pairwise_singleton _ _, ?_⟩
    intro other inside last here
    obtain rfl := List.mem_singleton.mp here
    exact others other inside

theorem Apart.merge (apart : Apart m) (other : List (Payload × α)) : Apart (merge m other) := by
  unfold Entries.merge
  induction other generalizing m with
  | nil => exact apart
  | cons entry rest ih => exact ih apart.put

theorem put_of_apart (others : ∀ other ∈ m.map Prod.fst, other.same k = false) :
    put k value m = m ++ [(k, value)] := by
  induction m with
  | nil => rfl
  | cons entry rest ih =>
      obtain ⟨first, later⟩ := List.forall_mem_cons.mp others
      rw [put, if_neg (Bool.eq_false_iff.mp first), ih later]
      rfl

/-- Entries whose keys are apart are written behind each other. -/
theorem merge_of_apart {other : List (Payload × α)} (apart : Apart (m ++ other)) :
    merge m other = m ++ other := by
  induction other generalizing m with
  | nil => exact (List.append_nil m).symm
  | cons entry rest ih =>
      have others : ∀ k ∈ m.map Prod.fst, k.same entry.1 = false := by
        unfold Apart at apart
        rw [List.map_append, List.pairwise_append] at apart
        exact fun k inside => apart.2.2 k inside entry.1 List.mem_cons_self
      have first : merge m (entry :: rest) = merge (put entry.1 entry.2 m) rest := rfl
      rw [List.append_cons] at apart
      rw [first, put_of_apart others, ih apart, ← List.append_cons]

theorem Distinct.text?_rest (distinct : Distinct ((.text key, value) :: m)) :
    text? key m = none := by
  cases found : text? key m with
  | none => rfl
  | some other =>
      have inside := List.mem_map_of_mem (f := Prod.fst) (text?_mem found)
      exact absurd rfl ((List.pairwise_cons.mp distinct).1 _ inside key rfl)

end Entries

/-- What stands at a path of keys. -/
def at? : Payload → List String → Option Payload
  | p, [] => some p
  | .map entries, key :: rest => (Entries.text? key entries).bind fun p => p.at? rest
  | _, _ :: _ => none

theorem at?_key (entries : Entries) (key : String) :
    (map entries).at? [key] = Entries.text? key entries := by
  rw [at?]
  cases Entries.text? key entries with
  | none => rfl
  | some p => rw [Option.bind_some, at?]

end TaintFlow.Payload
