import TaintFlow.Proofs.Data.Assoc
import TaintFlow.Proofs.Payload.Entries
import TaintFlow.Payload.Shared

/-!
# Mappings without a key that comes twice

If no mapping in a draft, and in the parts that it refers to, has a key twice, then
none in its payload has: `Shared.tidy_entries`.
-/

namespace TaintFlow

open Payload (Entries)

/-- No mapping inside of mappings has a key twice. -/
inductive Payload.Tidy : Payload → Prop
  | map {entries : List (Payload × Payload)} (keys : Entries.Distinct entries)
      (each : ∀ entry ∈ entries, Tidy entry.2) : Tidy (.map entries)
  | single {p : Payload} (other : ∀ entries, p ≠ .map entries) : Tidy p

namespace Draft

/-- No mapping inside of mappings of a draft has a key twice. -/
inductive Distinct : Draft → Prop
  | whole {p : Payload} (other : ∀ entries, p ≠ .map entries) : Distinct (.whole p)
  | list (items : List Draft) : Distinct (.list items)
  | tuple (items : List Draft) : Distinct (.tuple items)
  | map {entries : List (Payload × Draft)} (keys : Payload.Entries.Distinct entries)
      (each : ∀ entry ∈ entries, Distinct entry.2) : Distinct (.map entries)
  | part (anchor : Anchor) : Distinct (.part anchor)

/-- All payloads of parts that are known are tidy. -/
def KnownTidy (known : Assoc Anchor Payload) : Prop :=
  ∀ anchor p, known.find? anchor = some p → p.Tidy

variable {known : Assoc Anchor Payload} {d : Draft} {p : Payload}

theorem keys_fillEntries {entries : Draft.Entries} {filled : Payload.Entries}
    (made : fillEntries known entries = some filled) :
    filled.map Prod.fst = entries.map Prod.fst := by
  induction entries generalizing filled with
  | nil =>
      cases made
      rfl
  | cons entry rest ih =>
      obtain ⟨value, _, made⟩ := Option.bind_eq_some_iff.mp made
      obtain ⟨others, rest, made⟩ := Option.bind_eq_some_iff.mp made
      cases made
      exact congrArg (entry.1 :: ·) (ih rest)

theorem tidy_fillEntries {entries : Draft.Entries} {filled : Payload.Entries}
    (each : ∀ entry ∈ entries, ∀ p, entry.2.fill known = some p → p.Tidy)
    (made : fillEntries known entries = some filled) : ∀ entry ∈ filled, entry.2.Tidy := by
  induction entries generalizing filled with
  | nil =>
      cases made
      exact fun _ inside => absurd inside List.not_mem_nil
  | cons entry rest ih =>
      obtain ⟨first, others⟩ := List.forall_mem_cons.mp each
      obtain ⟨value, one, made⟩ := Option.bind_eq_some_iff.mp made
      obtain ⟨filled, all, made⟩ := Option.bind_eq_some_iff.mp made
      cases made
      exact List.forall_mem_cons.mpr ⟨first value one, ih others all⟩

theorem Distinct.tidy_fill (distinct : d.Distinct) (tidy : KnownTidy known)
    (made : d.fill known = some p) : p.Tidy := by
  induction distinct generalizing p with
  | whole other =>
      cases made
      exact .single other
  | list =>
      obtain ⟨_, _, rfl⟩ := Option.map_eq_some_iff.mp made
      exact .single nofun
  | tuple =>
      obtain ⟨_, _, rfl⟩ := Option.map_eq_some_iff.mp made
      exact .single nofun
  | map keys _ ih =>
      obtain ⟨filled, all, rfl⟩ := Option.map_eq_some_iff.mp made
      refine .map ?_ (tidy_fillEntries (fun entry inside p => ih entry inside) all)
      unfold Payload.Entries.Distinct
      rwa [keys_fillEntries all]
  | part anchor => exact tidy anchor p made

end Draft

namespace Parts

open Draft (KnownTidy)

variable {parts : Parts} {known : Assoc Anchor Payload}

theorem knownTidy_put {anchor : Anchor} {p : Payload} (tidy : KnownTidy known) (own : p.Tidy) :
    KnownTidy (known.put anchor p) := by
  intro a q found
  obtain rfl | differs := eq_or_ne a anchor
  · rw [Assoc.find?_put_self] at found
    exact Option.some.inj found ▸ own
  · rw [Assoc.find?_put_of_ne differs] at found
    exact tidy a q found

theorem knownTidy_pass (distinct : ∀ part ∈ parts, part.2.Distinct) (tidy : KnownTidy known) :
    KnownTidy (parts.pass known) := by
  induction parts generalizing known with
  | nil => exact tidy
  | cons part rest ih =>
      obtain ⟨first, others⟩ := List.forall_mem_cons.mp distinct
      rw [pass, List.foldl_cons]
      dsimp only
      cases made : part.2.fill known with
      | none => exact ih others tidy
      | some p => exact ih others (knownTidy_put tidy (first.tidy_fill tidy made))

theorem knownTidy_unfolded (distinct : ∀ part ∈ parts, part.2.Distinct) :
    KnownTidy parts.unfolded := by
  unfold unfolded
  generalize depth = n
  induction n with
  | zero =>
      intro anchor p found
      have start : Assoc.find? anchor (parts.map fun part => (part.1, Payload.map [])) =
          some p := found
      rw [Assoc.find?_map fun _ : Draft => Payload.map []] at start
      obtain ⟨_, _, rfl⟩ := Option.map_eq_some_iff.mp start
      exact .map Payload.Entries.distinct_nil fun _ inside => absurd inside List.not_mem_nil
  | succ n ih => exact knownTidy_pass distinct ih

end Parts

namespace Shared

theorem tidy_unfolded {s : Shared Draft} (body : s.body.Distinct)
    (parts : ∀ part ∈ s.parts, part.2.Distinct) : s.unfolded.Tidy := by
  have none : Draft.KnownTidy [] := fun _ _ found => nomatch found
  unfold unfolded
  cases made : s.payload? with
  | some p => exact body.tidy_fill (Parts.knownTidy_pass parts none) made
  | none =>
      cases made : s.body.fill s.parts.unfolded with
      | some p => exact body.tidy_fill (Parts.knownTidy_unfolded parts) made
      | none => exact .single nofun

variable {s : Shared Draft.Entries}

/-- The entries of a mapping have no key twice. -/
theorem tidy_entries (body : s.asDraft.body.Distinct)
    (parts : ∀ part ∈ s.parts, part.2.Distinct) : (Payload.map s.entries).Tidy := by
  have tidy := tidy_unfolded (s := s.asDraft) body parts
  unfold entries
  split
  · rename_i same
    exact same ▸ tidy
  · exact .map Payload.Entries.distinct_nil fun _ inside => absurd inside List.not_mem_nil

/-- The entries of a mapping have no keys but those of its draft. -/
theorem keys_entries {key : Payload} (inside : key ∈ s.entries.map Prod.fst) :
    key ∈ s.body.map Prod.fst := by
  have filled (known : Assoc Anchor Payload) (entries : Payload.Entries)
      (made : s.asDraft.body.fill known = some (.map entries)) :
      entries.map Prod.fst = s.body.map Prod.fst := by
    obtain ⟨below, made, same⟩ := Option.map_eq_some_iff.mp made
    cases same
    exact Draft.keys_fillEntries made
  unfold entries unfolded at inside
  split at inside
  · rename_i entries same
    split at same
    · rename_i p made
      exact filled _ entries (same ▸ made) ▸ inside
    · cases made : s.asDraft.body.fill s.asDraft.parts.unfolded with
      | none =>
          rw [made] at same
          cases same
      | some p =>
          rw [made] at same
          cases same
          exact filled _ entries made ▸ inside
  · cases inside

end Shared

end TaintFlow
