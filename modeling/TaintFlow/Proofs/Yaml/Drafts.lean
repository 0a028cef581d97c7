import TaintFlow.Proofs.Data.Except
import TaintFlow.Proofs.Payload.Shared
import TaintFlow.Proofs.Payload.Tidy
import TaintFlow.Yaml.Document

/-!
# The drafts of documents

A draft that is read from a text is a scalar, a sequence, a mapping whose entries
were written one by one, or refers to a shared part of the text.  What holds of
all such drafts if it holds of their members is packed in `Kept`, and
`holds_of_loadShared` is the induction for it.  Two cases are that a text shares
only parts of its own, and that no key of a mapping comes twice.
-/

namespace TaintFlow.Yaml

/-! ## Attempts -/

namespace Attempt

variable {α β : Type}

/-- What an attempt gives, if it gives anything, has a property. -/
def Gives (P : α → Prop) (a : Attempt α) : Prop := ∀ given, a = .ok given → P given

variable {P : α → Prop} {Q : β → Prop}

theorem gives_ok {given : α} (holds : P given) : Gives P (.ok given) := by
  rintro _ ⟨⟩
  exact holds

theorem gives_malformed (depth : Nat) : Gives P (malformed depth) := nofun

theorem Gives.both {a : Attempt α} {b : Attempt β} (first : a.Gives P) (second : b.Gives Q) :
    (Attempt.both a b).Gives fun pair => P pair.1 ∧ Q pair.2 := by
  cases a with
  | error e => cases b <;> exact nofun
  | ok x =>
      cases b with
      | error e => exact nofun
      | ok y => exact gives_ok ⟨first x rfl, second y rfl⟩

theorem Gives.map {a : Attempt α} {f : α → β} (gives : a.Gives P)
    (keeps : ∀ given, P given → Q (f given)) : Gives Q (Except.map f a) := by
  intro given same
  obtain ⟨x, had, rfl⟩ := Except.map_eq_ok.mp same
  exact keeps x (gives x had)

theorem gives_any (a : Attempt α) : a.Gives fun _ => True := fun _ _ => trivial

end Attempt

/-! ## Properties of drafts -/

/-- A property that the drafts of a text have if their members have it. -/
structure Kept (home : String) (P : Draft → Prop) : Prop where
  whole : ∀ p : Payload, (∀ entries, p ≠ .map entries) → P (.whole p)
  list : ∀ items : List Draft, (∀ item ∈ items, P item) → P (.list items)
  tuple : ∀ items : List Draft, (∀ item ∈ items, P item) → P (.tuple items)
  map : ∀ entries : Draft.Entries, (∀ entry ∈ entries, P entry.2) →
    P (.map (Payload.Entries.ofList entries))
  part : ∀ name, P (.part ⟨home, name⟩)

namespace Gathered

variable {g other : Gathered} {P : Draft → Prop}

/-- All values of gathered entries have a property. -/
structure Holds (P : Draft → Prop) (g : Gathered) : Prop where
  merged : g.merged.Gives fun entries => ∀ entry ∈ entries, P entry.2
  own : g.own.Gives fun entries => ∀ entry ∈ entries, P entry.2

theorem holds_of_own {misused : Bool} {entries : Attempt Draft.Entries}
    (own : entries.Gives fun entries => ∀ entry ∈ entries, P entry.2) :
    Holds P { misused, own := entries } where
  merged := Attempt.gives_ok fun _ inside => absurd inside List.not_mem_nil
  own := own

theorem holds_empty : Holds P {} :=
  holds_of_own (Attempt.gives_ok fun _ inside => absurd inside List.not_mem_nil)

theorem holds_bad : Holds P bad := ⟨holds_empty.merged, holds_empty.own⟩

theorem Holds.all (holds : g.Holds P) : g.all.Gives fun entries => ∀ entry ∈ entries, P entry.2 :=
  (holds.merged.both holds.own).map fun _ both => List.forall_mem_append.mpr both

theorem Holds.mergeFirst (holds : g.Holds P) (others : other.Holds P) :
    (g.mergeFirst other).Holds P :=
  ⟨(holds.all.both others.merged).map fun _ both => List.forall_mem_append.mpr both, others.own⟩

theorem Holds.toMap {home : String} (holds : g.Holds P) (kept : Kept home P) (depth : Nat) :
    (g.toMap depth).Gives fun entries => P (.map entries) := by
  unfold Gathered.toMap
  split
  · exact Attempt.gives_malformed depth
  · exact holds.all.map fun entries => kept.map entries

theorem holds_each {misused : Bool} {first others : Gathered} (one : first.Holds P)
    (rest : others.Holds P) :
    Holds P { misused, own := (Attempt.both others.all first.all).map fun (a, b) => a ++ b } :=
  holds_of_own ((rest.all.both one.all).map fun _ both => List.forall_mem_append.mpr both)

end Gathered

/-! ## Nodes -/

/-- The payload of a scalar is no mapping. -/
theorem scalar_ne_map {tag : Tag} {text : String} {serial : Nat} {p : Payload}
    (made : Conversion.scalar tag text serial = .ok p) (entries : Payload.Entries) :
    p ≠ .map entries := by
  rintro rfl
  unfold Conversion.scalar at made
  dsimp only at made
  split at made
  case h_1 | h_5 | h_8 => cases made
  case h_6 =>
    split at made
    · rename_i read
      cases made
      unfold Conversion.moment at read
      dsimp only at read
      split at read
      · split at read <;> cases read
      · cases read
    · cases made
  all_goals split at made <;> cases made

namespace Node

theorem gives_scalarPayload (depth : Nat) (node : Node) :
    (scalarPayload depth node).Gives fun p => ∀ entries, p ≠ .map entries := by
  intro p made
  unfold scalarPayload at made
  split at made
  · cases made
  · split at made
    · cases made
    · split at made
      · rename_i read
        cases made
        exact scalar_ne_map read
      · cases made

variable {c : Context} {P : Draft → Prop}

theorem gives_pair {home : String} (kept : Kept home P) {key value : Attempt Draft}
    {rest : Attempt (List Draft)} (first : key.Gives P) (second : value.Gives P)
    (others : rest.Gives fun drafts => ∀ d ∈ drafts, P d) :
    Attempt.Gives (fun drafts => ∀ d ∈ drafts, P d)
      ((Attempt.both (Attempt.both key value) rest).map
        fun ((key, value), rest) => Draft.tuple [key, value] :: rest) := by
  refine ((first.both second).both others).map fun given ⟨⟨one, other⟩, rest⟩ => ?_
  have pair := List.forall_mem_cons.mpr ⟨one, List.forall_mem_singleton.mpr other⟩
  exact List.forall_mem_cons.mpr ⟨kept.tuple _ pair, rest⟩

mutual

/-- The draft of a node has a property that is kept. -/
theorem gives_toDraft (kept : Kept c.home P) (depth : Nat) :
    (node : Node) → (toDraft c depth node).Gives P
  | .scalar tag text serial => by
      unfold toDraft
      split
      case h_6 => exact (gives_scalarPayload depth _).map kept.whole
      all_goals exact Attempt.gives_malformed (depth + 1)
  | .sequence tag items => by
      unfold toDraft
      have plain := gives_toDrafts kept (depth + 1) items
      have pairs := gives_toPairs kept (depth + 1) items
      split
      · exact plain.map kept.list
      · exact pairs.map kept.list
      · exact pairs.map kept.list
      · exact Attempt.gives_malformed _
      · exact Attempt.gives_malformed _
      · exact Attempt.gives_malformed _
  | .mapping tag entries => by
      unfold toDraft
      split
      · exact ((gives_gather kept (depth + 1) entries).toMap kept (depth + 1)).map fun _ => id
      · exact (Attempt.gives_any _).map fun _ _ => kept.whole _ nofun
      · exact Attempt.gives_malformed _
      · exact Attempt.gives_malformed _
      · exact Attempt.gives_malformed _
      · exact (gives_scalarPayload depth _).map kept.whole
  | .anchored name node => by
      unfold toDraft
      split
      · exact nofun
      · exact Attempt.gives_ok (kept.part name)

theorem gives_toDrafts (kept : Kept c.home P) (depth : Nat) :
    (nodes : List Node) → (toDrafts c depth nodes).Gives fun drafts => ∀ d ∈ drafts, P d
  | [] => Attempt.gives_ok fun _ inside => absurd inside List.not_mem_nil
  | node :: rest => by
      unfold toDrafts
      exact ((gives_toDraft kept depth node).both (gives_toDrafts kept depth rest)).map
        fun _ both => List.forall_mem_cons.mpr both

theorem gives_toPairs (kept : Kept c.home P) (depth : Nat) :
    (nodes : List Node) → (toPairs c depth nodes).Gives fun drafts => ∀ d ∈ drafts, P d
  | [] => Attempt.gives_ok fun _ inside => absurd inside List.not_mem_nil
  | .mapping _ [(key, value)] :: rest => by
      unfold toPairs
      exact gives_pair kept (gives_toDraft kept depth key) (gives_toDraft kept depth value)
        (gives_toPairs kept depth rest)
  | .anchored _ (.mapping _ [(key, value)]) :: rest => by
      unfold toPairs
      exact gives_pair kept (gives_toDraft kept depth key) (gives_toDraft kept depth value)
        (gives_toPairs kept depth rest)
  | .scalar .. :: _ => Attempt.gives_malformed depth
  | .sequence .. :: _ => Attempt.gives_malformed depth
  | .mapping _ [] :: _ => Attempt.gives_malformed depth
  | .mapping _ (_ :: _ :: _) :: _ => Attempt.gives_malformed depth
  | .anchored _ (.scalar ..) :: _ => Attempt.gives_malformed depth
  | .anchored _ (.sequence ..) :: _ => Attempt.gives_malformed depth
  | .anchored _ (.anchored ..) :: _ => Attempt.gives_malformed depth
  | .anchored _ (.mapping _ []) :: _ => Attempt.gives_malformed depth
  | .anchored _ (.mapping _ (_ :: _ :: _)) :: _ => Attempt.gives_malformed depth

theorem gives_gather (kept : Kept c.home P) (depth : Nat) :
    (entries : List (Node × Node)) → (gather c depth entries).Holds P
  | [] => Gathered.holds_empty
  | (key, value) :: rest => by
      have others := gives_gather kept depth rest
      unfold gather
      dsimp only
      split
      · exact (gives_gatherMerged kept depth value).mergeFirst others
      · refine ⟨others.merged, ?_⟩
        exact (((Attempt.gives_any _).both (gives_toDraft kept depth value)).both others.own).map
          fun _ both => List.forall_mem_cons.mpr ⟨both.1.2, both.2⟩

theorem gives_gatherMerged (kept : Kept c.home P) (depth : Nat) :
    (node : Node) → (gatherMerged c depth node).Holds P
  | .scalar .. => Gathered.holds_bad
  | .mapping _ entries => gives_gather kept depth entries
  | .sequence _ items => gives_gatherEach kept depth items
  | .anchored _ node => gives_gatherMerged kept depth node

theorem gives_gatherEach (kept : Kept c.home P) (depth : Nat) :
    (nodes : List Node) → (gatherEach c depth nodes).Holds P
  | [] => Gathered.holds_empty
  | .mapping _ entries :: rest => by
      unfold gatherEach
      exact Gathered.holds_each (gives_gather kept depth entries) (gives_gatherEach kept depth rest)
  | .anchored _ (.mapping _ entries) :: rest => by
      unfold gatherEach
      exact Gathered.holds_each (gives_gather kept depth entries) (gives_gatherEach kept depth rest)
  | .scalar .. :: _ => Gathered.holds_bad
  | .sequence .. :: _ => Gathered.holds_bad
  | .anchored _ (.scalar ..) :: _ => Gathered.holds_bad
  | .anchored _ (.sequence ..) :: _ => Gathered.holds_bad
  | .anchored _ (.anchored ..) :: _ => Gathered.holds_bad

end

end Node

/-! ## Documents -/

section Document

variable {home : String} {P : Draft → Prop} (kept : Kept home P)
include kept

/-- The next collection with a name has a property that is kept, if it is a shared part. -/
theorem holds_addPart {c : Node.Context} {parts : Parts} (same : c.home = home)
    (holds : ∀ part ∈ parts, part.1.home = home ∧ P part.2) (entry : String × Node) :
    (Document.addPart (c, parts) entry).1.home = home ∧
      ∀ part ∈ (Document.addPart (c, parts) entry).2, part.1.home = home ∧ P part.2 := by
  obtain ⟨name, node⟩ := entry
  subst same
  have draft := Node.gives_toDraft kept 0 node
  unfold Document.addPart
  dsimp only
  split
  · rename_i d made
    refine ⟨rfl, fun part inside => ?_⟩
    obtain rfl | before := Assoc.mem_of_mem_put inside
    · exact ⟨rfl, draft d made⟩
    · exact holds part before
  · exact ⟨rfl, holds⟩

theorem holds_addParts {c : Node.Context} {parts : Parts} (same : c.home = home)
    (holds : ∀ part ∈ parts, part.1.home = home ∧ P part.2) (anchored : List (String × Node)) :
    (anchored.foldl Document.addPart (c, parts)).1.home = home ∧
      ∀ part ∈ (anchored.foldl Document.addPart (c, parts)).2, part.1.home = home ∧ P part.2 := by
  induction anchored generalizing c parts with
  | nil => exact ⟨same, holds⟩
  | cons entry rest ih =>
      obtain ⟨same, holds⟩ := holds_addPart kept same holds entry
      exact ih same holds

theorem holds_of_toShared {d : Document} {s : Shared Draft} (made : d.toShared home = .ok s) :
    P s.body ∧ ∀ part ∈ s.parts, part.1.home = home ∧ P part.2 := by
  have none : ∀ part ∈ ([] : Parts), part.1.home = home ∧ P part.2 :=
    fun _ inside => absurd inside List.not_mem_nil
  obtain ⟨same, parts⟩ := holds_addParts kept (c := { home }) rfl none d.anchored
  unfold Document.toShared at made
  dsimp only at made
  split at made
  · rename_i draft drafted
    cases made
    have kept : Kept (d.anchored.foldl Document.addPart ({ home }, [])).1.home P := by rwa [same]
    exact ⟨Node.gives_toDraft kept 0 d.root draft drafted, parts⟩
  · cases made

/-- What is read from a text has a property that is kept, and so have the parts that it shares. -/
theorem holds_of_loadShared {text : List Char} {s : Shared Draft}
    (read : loadShared home text = .ok s) :
    P s.body ∧ ∀ part ∈ s.parts, part.1.home = home ∧ P part.2 := by
  obtain ⟨found, _, read⟩ := Except.bind_eq_ok.mp read
  cases found with
  | none =>
      cases read
      exact ⟨kept.whole .null nofun, fun _ inside => absurd inside List.not_mem_nil⟩
  | some d => exact holds_of_toShared kept read

end Document

/-! ## Homes of shared parts, and keys -/

theorem values_ofList {P : Draft → Prop} {entries : Draft.Entries}
    (each : ∀ entry ∈ entries, P entry.2) :
    ∀ entry ∈ Payload.Entries.ofList entries, P entry.2 := by
  have fold (m : Draft.Entries) (start : ∀ entry ∈ m, P entry.2) :
      ∀ entry ∈ Payload.Entries.merge m entries, P entry.2 := by
    unfold Payload.Entries.merge
    induction entries generalizing m with
    | nil => exact start
    | cons first rest ih =>
        obtain ⟨own, others⟩ := List.forall_mem_cons.mp each
        refine ih others _ fun entry inside => ?_
        obtain before | same := Payload.Entries.mem_put inside
        · exact start entry before
        · exact same ▸ own
  exact fold [] fun _ inside => absurd inside List.not_mem_nil

theorem kept_from (home : String) : Kept home (Draft.From [home]) where
  whole p _ := .whole p
  list _ := .list
  tuple _ := .tuple
  map _ each := .map (values_ofList each)
  part _ := .part List.mem_cons_self

theorem kept_distinct (home : String) : Kept home Draft.Distinct where
  whole _ single := .whole single
  list items _ := .list items
  tuple items _ := .tuple items
  map entries each := .map (Payload.Entries.distinct_ofList entries) (values_ofList each)
  part name := .part ⟨home, name⟩

/-- What is read from a text shares only parts of this text. -/
theorem ofHome_of_loadShared {home : String} {text : List Char} {s : Shared Draft}
    (read : loadShared home text = .ok s) : s.OfHome home := by
  obtain ⟨body, parts⟩ := holds_of_loadShared (kept_from home) read
  exact ⟨body, fun part inside => (parts part inside).1, fun part inside => (parts part inside).2⟩

end TaintFlow.Yaml
