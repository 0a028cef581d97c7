import TaintFlow.Proofs.Yaml.Nodes
import TaintFlow.Yaml.Document

/-!
# The kinds of refusals

A text yields data, or it is refused with a mishap of one of the kinds listed by
`Refusal.kinds`.  The nodes of a document are read with refusals of these kinds
only, and the conversions of scalars and the forms of collections add no others.
The main statement is `known_of_loadShared`.
-/

namespace TaintFlow.Yaml

open Std.Do

set_option mvcgen.warning false

/-! ## Scalars -/

namespace Conversion

/-- A conversion of a scalar succeeds, or fails with a mishap of a known kind. -/
abbrev Converts {α : Type} (outcome : Except Mishap α) : Prop :=
  ⦃⌜True⌝⦄ outcome ⦃post⟨fun _ => ⌜True⌝, fun m => ⌜(Refusal.mishap m).Known⌝⟩⦄

@[spec]
theorem converts_ok {α : Type} (a : α) : Converts (.ok a) := fun _ => trivial

@[spec]
theorem converts_error {α : Type} {m : Mishap} (known : (Refusal.mishap m).Known) :
    Converts (.error m : Except Mishap α) := fun _ => known

theorem Converts.known {α : Type} {outcome : Except Mishap α} (converts : Converts outcome)
    {m : Mishap} (failed : outcome = .error m) : (Refusal.mishap m).Known := by
  have known := converts trivial
  rw [failed] at known
  exact known

@[spec]
theorem converts_mapM {α β : Type} {f : α → Except Mishap β} (each : ∀ a, Converts (f a))
    (given : List α) : Converts (given.mapM f) := by
  induction given with
  | nil => mvcgen [List.mapM_nil]
  | cons a rest ih =>
      rw [List.mapM_cons]
      mvcgen [each, ih]

@[spec]
theorem converts_foldlM {α β : Type} {f : β → α → Except Mishap β} (each : ∀ b a, Converts (f b a))
    (given : List α) (b : β) : Converts (given.foldlM f b) := by
  induction given generalizing b with
  | nil => exact converts_ok b
  | cons a rest ih =>
      rw [List.foldlM_cons]
      mvcgen [each, ih, -Spec.foldlM_list]

@[spec]
theorem converts_wholeIn (base : Nat) (text : List Char) : Converts (wholeIn base text) := by
  mvcgen [wholeIn]
  · exact (by decide : "ValueError" ∈ Refusal.kinds)
  · exact (by decide : "ValueError" ∈ Refusal.kinds)

@[spec]
theorem converts_signed (text : List Char) : Converts (signed text) := by
  mvcgen [signed]
  exact (by decide : "IndexError" ∈ Refusal.kinds)

@[spec]
theorem converts_whole (text : List Char) : Converts (whole text) := by
  mvcgen [whole]
  exact (by decide : "IndexError" ∈ Refusal.kinds)

@[spec]
theorem converts_double (text : List Char) : Converts (double text) := by
  mvcgen [double]
  exact (by decide : "ValueError" ∈ Refusal.kinds)

@[spec]
theorem converts_sixtiethsDouble (parts : List Number.Binary64) :
    Converts (sixtiethsDouble parts) := by
  refine converts_foldlM ?_ _ _
  rintro sum ⟨x, i⟩
  dsimp only
  split
  · exact converts_ok _
  · exact converts_error (by decide : "OverflowError" ∈ Refusal.kinds)

@[spec]
theorem converts_decimal (text : List Char) (serial : Nat) : Converts (decimal text serial) := by
  mvcgen [decimal]

@[spec]
theorem converts_truth (text : String) : Converts (truth text) := by
  mvcgen [truth]
  exact (by decide : "KeyError" ∈ Refusal.kinds)

@[spec]
theorem converts_moment (text : List Char) : Converts (moment text) := by
  mvcgen [moment]
  · exact (by decide : "ValueError" ∈ Refusal.kinds)
  · exact (by decide : "AttributeError" ∈ Refusal.kinds)

theorem known_of_scalar {tag : Tag} {text : String} {serial : Nat} {why : Refusal}
    (failed : scalar tag text serial = .error why) : why.Known := by
  cases tag with
  | text | null => cases failed
  | whole =>
      unfold scalar at failed
      dsimp only at failed
      split at failed
      · cases failed
      · cases failed
        exact (converts_whole _).known ‹_›
  | decimal =>
      unfold scalar at failed
      dsimp only at failed
      split at failed
      · cases failed
      · cases failed
        exact (converts_decimal _ serial).known ‹_›
  | truth =>
      unfold scalar at failed
      dsimp only at failed
      split at failed
      · cases failed
      · cases failed
        exact (converts_truth text).known ‹_›
  | moment =>
      unfold scalar at failed
      dsimp only at failed
      split at failed
      · cases failed
      · cases failed
        exact (converts_moment _).known ‹_›
  | binary =>
      unfold scalar at failed
      dsimp only at failed
      split at failed
      · cases failed
      · cases failed
        exact Refusal.known_malformed
  | sequence | mapping | set | orderedMap | pairs | merge | standIn | unknown =>
      cases failed
      exact Refusal.known_malformed

end Conversion

/-! ## Drafts -/

namespace Attempt

variable {α β : Type}

/-- A part of a document is refused with a refusal of a known kind, if it is refused. -/
def Known (a : Attempt α) : Prop := ∀ flaw, a = .error flaw → flaw.2.Known

theorem known_ok (a : α) : Known (.ok a) := nofun

theorem known_error {depth : Nat} {why : Refusal} (known : why.Known) :
    Known (.error (depth, why) : Attempt α) := by
  rintro _ ⟨⟩
  exact known

theorem known_malformed (depth : Nat) : Known (malformed depth : Attempt α) :=
  known_error Refusal.known_malformed

theorem Known.both {a : Attempt α} {b : Attempt β} (first : a.Known) (second : b.Known) :
    (both a b).Known := by
  cases a with
  | ok x =>
      cases b with
      | ok y => exact known_ok _
      | error f => exact fun flaw same => second flaw (by cases same; rfl)
  | error e =>
      cases b with
      | ok y => exact fun flaw same => first flaw (by cases same; rfl)
      | error f =>
          rintro _ ⟨⟩
          split
          · exact second _ rfl
          · exact first _ rfl

theorem Known.map {a : Attempt α} (known : a.Known) (f : α → β) : Known (Except.map f a) := by
  intro flaw same
  cases a with
  | ok x => cases same
  | error e =>
      cases same
      exact known _ rfl

theorem Known.asKey {a : Attempt Draft} (known : a.Known) (depth : Nat) :
    (a.asKey depth).Known := by
  unfold Attempt.asKey
  split
  · split
    · exact known_malformed depth
    · exact known_ok _
  · exact known_malformed depth
  · split
    · exact known_malformed depth
    · exact known_error (known _ rfl)

end Attempt

namespace Gathered

/-- All that is gathered is there, or is refused with a refusal of a known kind. -/
structure Known (g : Gathered) : Prop where
  merged : g.merged.Known
  own : g.own.Known

variable {g other : Gathered}

theorem Known.all (known : g.Known) : g.all.Known := (known.merged.both known.own).map _

theorem known_empty : Known {} := ⟨Attempt.known_ok _, Attempt.known_ok _⟩

theorem known_bad : Known bad := ⟨Attempt.known_ok _, Attempt.known_ok _⟩

theorem Known.mergeFirst (known : g.Known) (others : other.Known) : (g.mergeFirst other).Known :=
  ⟨(known.all.both others.merged).map _, others.own⟩

theorem Known.toMap (known : g.Known) (depth : Nat) : (g.toMap depth).Known := by
  unfold Gathered.toMap
  split
  · exact Attempt.known_malformed depth
  · exact known.all.map _

end Gathered

namespace Node

theorem known_scalarPayload (depth : Nat) (node : Node) : (scalarPayload depth node).Known := by
  unfold scalarPayload
  split
  · exact Attempt.known_malformed depth
  · split
    · exact Attempt.known_error (by decide : "TypeError" ∈ Refusal.kinds)
    · split
      · exact Attempt.known_ok _
      · exact Attempt.known_error (Conversion.known_of_scalar ‹_›)

/-- The collections with names that are refused are refused with refusals of known kinds. -/
def Context.Known (c : Context) : Prop :=
  ∀ name flaw, c.refused.find? name = some flaw → flaw.2.Known

variable {c : Context}

mutual

theorem known_toDraft (known : c.Known) (depth : Nat) : (node : Node) → (toDraft c depth node).Known
  | .scalar tag text serial => by
      unfold toDraft
      split
      case h_6 => exact (known_scalarPayload depth _).map _
      all_goals exact Attempt.known_malformed (depth + 1)
  | .sequence tag items => by
      unfold toDraft
      have plain := known_toDrafts known (depth + 1) items
      have pairs := known_toPairs known (depth + 1) items
      split
      · exact plain.map _
      · exact pairs.map _
      · exact pairs.map _
      · exact Attempt.known_malformed _
      · exact Attempt.known_malformed _
      · exact Attempt.known_malformed _
  | .mapping tag entries => by
      unfold toDraft
      have inside := (known_gather known (depth + 1) entries).toMap (depth + 1)
      split
      · exact inside.map _
      · exact inside.map _
      · exact Attempt.known_malformed _
      · exact Attempt.known_malformed _
      · exact Attempt.known_malformed _
      · exact (known_scalarPayload depth _).map _
  | .anchored name node => by
      unfold toDraft
      split
      · rename_i refused
        exact Attempt.known_error (known name _ refused)
      · exact Attempt.known_ok _

theorem known_toDrafts (known : c.Known) (depth : Nat) :
    (nodes : List Node) → (toDrafts c depth nodes).Known
  | [] => Attempt.known_ok _
  | node :: rest => by
      unfold toDrafts
      exact ((known_toDraft known depth node).both (known_toDrafts known depth rest)).map _

theorem known_toPairs (known : c.Known) (depth : Nat) :
    (nodes : List Node) → (toPairs c depth nodes).Known
  | [] => Attempt.known_ok _
  | .mapping _ [(key, value)] :: rest => by
      have entry := (known_toDraft known depth key).both (known_toDraft known depth value)
      unfold toPairs
      exact (entry.both (known_toPairs known depth rest)).map _
  | .anchored _ (.mapping _ [(key, value)]) :: rest => by
      have entry := (known_toDraft known depth key).both (known_toDraft known depth value)
      unfold toPairs
      exact (entry.both (known_toPairs known depth rest)).map _
  | .scalar .. :: _ => Attempt.known_malformed depth
  | .sequence .. :: _ => Attempt.known_malformed depth
  | .mapping _ [] :: _ => Attempt.known_malformed depth
  | .mapping _ (_ :: _ :: _) :: _ => Attempt.known_malformed depth
  | .anchored _ (.scalar ..) :: _ => Attempt.known_malformed depth
  | .anchored _ (.sequence ..) :: _ => Attempt.known_malformed depth
  | .anchored _ (.anchored ..) :: _ => Attempt.known_malformed depth
  | .anchored _ (.mapping _ []) :: _ => Attempt.known_malformed depth
  | .anchored _ (.mapping _ (_ :: _ :: _)) :: _ => Attempt.known_malformed depth

theorem known_gather (known : c.Known) (depth : Nat) :
    (entries : List (Node × Node)) → (gather c depth entries).Known
  | [] => Gathered.known_empty
  | (key, value) :: rest => by
      have others := known_gather known depth rest
      unfold gather
      dsimp only
      split
      · exact (known_gatherMerged known depth value).mergeFirst others
      · refine ⟨others.merged, ((Attempt.Known.both ?_ (known_toDraft known depth value)).both others.own).map _⟩
        split
        · exact Attempt.known_ok _
        · exact (known_toDraft known depth key).asKey depth

theorem known_gatherMerged (known : c.Known) (depth : Nat) :
    (node : Node) → (gatherMerged c depth node).Known
  | .scalar .. => Gathered.known_bad
  | .mapping _ entries => known_gather known depth entries
  | .sequence _ items => known_gatherEach known depth items
  | .anchored _ node => known_gatherMerged known depth node

theorem known_gatherEach (known : c.Known) (depth : Nat) :
    (nodes : List Node) → (gatherEach c depth nodes).Known
  | [] => Gathered.known_empty
  | .mapping _ entries :: rest => by
      have first := known_gather known depth entries
      have others := known_gatherEach known depth rest
      unfold gatherEach
      exact ⟨Attempt.known_ok _, (others.all.both first.all).map _⟩
  | .anchored _ (.mapping _ entries) :: rest => by
      have first := known_gather known depth entries
      have others := known_gatherEach known depth rest
      unfold gatherEach
      exact ⟨Attempt.known_ok _, (others.all.both first.all).map _⟩
  | .scalar .. :: _ => Gathered.known_bad
  | .sequence .. :: _ => Gathered.known_bad
  | .anchored _ (.scalar ..) :: _ => Gathered.known_bad
  | .anchored _ (.sequence ..) :: _ => Gathered.known_bad
  | .anchored _ (.anchored ..) :: _ => Gathered.known_bad

end

end Node

/-! ## Documents -/

theorem Node.Context.Known.addPart {c : Node.Context} (known : c.Known) (parts : Parts)
    (entry : String × Node) : (Document.addPart (c, parts) entry).1.Known := by
  obtain ⟨name, node⟩ := entry
  have draft := Node.known_toDraft known 0 node
  unfold Document.addPart
  dsimp only
  split
  · exact known
  · rename_i flaw refused
    intro other flaw' found
    obtain rfl | different := eq_or_ne other name
    · rw [Assoc.find?_put_self] at found
      cases found
      exact draft _ refused
    · rw [Assoc.find?_put_of_ne different] at found
      exact known _ _ found

theorem known_addParts {c : Node.Context} (known : c.Known) (parts : Parts)
    (anchored : List (String × Node)) : (anchored.foldl Document.addPart (c, parts)).1.Known := by
  induction anchored generalizing c parts with
  | nil => exact known
  | cons entry rest ih => exact ih (known.addPart parts entry) _

theorem known_of_toShared {home : String} {d : Document} {why : Refusal}
    (failed : d.toShared home = .error why) : why.Known := by
  have none : Node.Context.Known { home } := fun _ _ found => nomatch found
  have known := known_addParts none [] d.anchored
  unfold Document.toShared at failed
  dsimp only at failed
  split at failed
  · cases failed
  · rename_i depth other refused
    cases failed
    exact Node.known_toDraft known 0 d.root _ refused

/-- A text that is refused is refused with a refusal of a known kind. -/
theorem known_of_loadShared {home : String} {text : List Char} {why : Refusal}
    (failed : loadShared home text = .error why) : why.Known := by
  unfold loadShared at failed
  obtain failed | ⟨found, _, failed⟩ := Except.bind_eq_error.mp failed
  · exact known_of_ofText? failed
  · cases found with
    | none => cases failed
    | some d => exact known_of_toShared failed

end TaintFlow.Yaml
