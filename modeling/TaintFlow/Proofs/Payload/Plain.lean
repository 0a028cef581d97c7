import TaintFlow.Proofs.Payload.Shared

/-!
# Drafts that share nothing

A draft that refers to no shared part is one payload, whatever parts there are,
and its payload has at a path of keys what the draft leads to.
-/

namespace TaintFlow

open Payload (Entries)

namespace Draft

/-! ## Payloads -/

variable {d : Draft} {parts : Parts} {entries : Draft.Entries}

theorem exists_fillAll {items : List Draft}
    (each : ∀ item ∈ items, ∃ p, ∀ known, item.fill known = some p) :
    ∃ payloads, ∀ known, fillAll known items = some payloads := by
  induction items with
  | nil => exact ⟨[], fun _ => rfl⟩
  | cons item rest ih =>
      obtain ⟨⟨p, first⟩, others⟩ := List.forall_mem_cons.mp each
      obtain ⟨payloads, filled⟩ := ih others
      refine ⟨p :: payloads, fun known => ?_⟩
      rw [fillAll, first, filled]
      rfl

theorem exists_fillEntries (each : ∀ entry ∈ entries, ∃ p, ∀ known, entry.2.fill known = some p) :
    ∃ payloads, ∀ known, fillEntries known entries = some payloads := by
  induction entries with
  | nil => exact ⟨[], fun _ => rfl⟩
  | cons entry rest ih =>
      obtain ⟨⟨p, first⟩, others⟩ := List.forall_mem_cons.mp each
      obtain ⟨payloads, filled⟩ := ih others
      refine ⟨(entry.1, p) :: payloads, fun known => ?_⟩
      rw [fillEntries, first, filled]
      rfl

/-- A draft that refers to no part has one payload. -/
theorem From.exists_fill (plain : d.From []) : ∃ p, ∀ known, d.fill known = some p := by
  induction plain with
  | whole payload => exact ⟨payload, fun _ => rfl⟩
  | list _ ih =>
      obtain ⟨payloads, filled⟩ := exists_fillAll ih
      exact ⟨.list payloads, fun known => by rw [fill, filled, Option.map_some]⟩
  | tuple _ ih =>
      obtain ⟨payloads, filled⟩ := exists_fillAll ih
      exact ⟨.tuple payloads, fun known => by rw [fill, filled, Option.map_some]⟩
  | map _ ih =>
      obtain ⟨payloads, filled⟩ := exists_fillEntries ih
      exact ⟨.map payloads, fun known => by rw [fill, filled, Option.map_some]⟩
  | part inside => exact absurd inside List.not_mem_nil

theorem From.fill_eq (plain : d.From []) (parts : Parts) (known : Assoc Anchor Payload) :
    d.fill known = some (⟨d, parts⟩ : Shared Draft).unfolded := by
  obtain ⟨p, filled⟩ := plain.exists_fill
  have payload : (⟨d, parts⟩ : Shared Draft).payload? = some p := filled _
  rw [filled, Shared.unfolded, payload]

theorem unfolded_map (plain : ∀ entry ∈ entries, entry.2.From []) :
    (⟨.map entries, parts⟩ : Shared Draft).unfolded =
      .map (entries.map fun (key, d) => (key, (⟨d, parts⟩ : Shared Draft).unfolded)) := by
  have filled : fillEntries [] entries =
      some (entries.map fun (key, d) => (key, (⟨d, parts⟩ : Shared Draft).unfolded)) := by
    induction entries with
    | nil => rfl
    | cons entry rest ih =>
        obtain ⟨first, others⟩ := List.forall_mem_cons.mp plain
        rw [fillEntries, first.fill_eq parts, ih others]
        rfl
  have whole := (From.map plain).fill_eq parts []
  rw [fill, filled, Option.map_some] at whole
  exact (Option.some.inj whole).symm

theorem unfolded_list (parts : Parts) {items : List Draft} (plain : ∀ item ∈ items, item.From []) :
    ∃ payloads, (⟨.list items, parts⟩ : Shared Draft).unfolded = .list payloads := by
  obtain ⟨payloads, filled⟩ := exists_fillAll fun item inside => (plain item inside).exists_fill
  have whole := (From.list plain).fill_eq parts []
  rw [fill, filled, Option.map_some] at whole
  exact ⟨payloads, (Option.some.inj whole).symm⟩

theorem unfolded_tuple (parts : Parts) {items : List Draft} (plain : ∀ item ∈ items, item.From []) :
    ∃ payloads, (⟨.tuple items, parts⟩ : Shared Draft).unfolded = .tuple payloads := by
  obtain ⟨payloads, filled⟩ := exists_fillAll fun item inside => (plain item inside).exists_fill
  have whole := (From.tuple plain).fill_eq parts []
  rw [fill, filled, Option.map_some] at whole
  exact ⟨payloads, (Option.some.inj whole).symm⟩

/-! ## Paths -/

theorem closed_nil : parts.Closed [] := fun _ _ inside => absurd inside List.not_mem_nil

/-- At a path the payload has what the draft leads to. -/
theorem From.at?_unfolded (plain : d.From []) {path : List String} :
    (⟨d, parts⟩ : Shared Draft).unfolded.at? path = (⟨d, parts⟩ : Shared Draft).lookup path := by
  induction path generalizing d with
  | nil =>
      rw [Payload.at?]
      rfl
  | cons key rest ih =>
      cases plain with
      | map each =>
          rename_i entries
          rw [unfolded_map each, Payload.at?, Shared.lookup, Parts.at?_map]
          rw [Payload.Entries.text?_map_values fun d => (⟨d, parts⟩ : Shared Draft).unfolded]
          cases found : Entries.text? key entries with
          | none => rfl
          | some child => exact ih (each _ (Payload.Entries.text?_mem found))
      | whole p =>
          rw [Shared.lookup, Parts.at?_whole, Option.map_map]
          exact Option.map_id'.symm
      | list each =>
          obtain ⟨payloads, same⟩ := unfolded_list parts each
          rw [same]
          rfl
      | tuple each =>
          obtain ⟨payloads, same⟩ := unfolded_tuple parts each
          rw [same]
          rfl
      | part inside => exact absurd inside List.not_mem_nil

theorem From.at? (plain : d.From []) {path : List String} {d' : Draft}
    (leads : parts.at? d path = some d') : d'.From [] :=
  closed_nil.at? plain leads

/-- Where such a draft is a mapping its payload is one. -/
theorem From.exists_unfolded_eq_map (plain : d.From []) (opens : parts.entries? d = some entries) :
    ∃ below, (⟨d, parts⟩ : Shared Draft).unfolded = .map below := by
  cases plain with
  | map each => exact ⟨_, unfolded_map each⟩
  | whole p =>
      cases p with
      | map below => exact ⟨below, rfl⟩
      | _ => cases opens
  | list | tuple => cases opens
  | part inside => exact absurd inside List.not_mem_nil

end Draft

end TaintFlow
