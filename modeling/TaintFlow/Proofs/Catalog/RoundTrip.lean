import TaintFlow.Proofs.Catalog.Grammar
import TaintFlow.Proofs.Ledger.Record
import TaintFlow.Proofs.Relay.Exact

/-!
# Chains that are written and read again

A chain that is written as JSON and read again as the only entry of a catalog is the
same chain, as far as JSON can write it: the main statement is `Chain.comes_back`.
Whatever the fields of a chain are, they are read as the chain (`Catalog.entry_fields`);
what is left to show is that the dump of a chain says nothing but these fields.
-/

namespace TaintFlow

open Number
open Payload (Entries HasField HasFieldOr IsEach IsKeyed)

/-! ## Payloads that a record holds as they are -/

namespace Payload

/-- Is this a double without a decimal form? -/
inductive Endless : Payload → Prop where
  | float {x : Binary64} (endless : x.isFinite = false) : Endless (.float x)

/-- The payload has the form of JSON: no key stands in a mapping twice, and all doubles are finite. -/
structure Faithful (p : Payload) : Prop where
  exact : p.Exact
  once : ¬ p.Has RepeatsKey
  finite : ¬ p.Has Endless

theorem Faithful.of_leaf {p : Payload} (list : ∀ items, p ≠ .list items)
    (map : ∀ entries, p ≠ .map entries) (exact : p.Exact) (finite : ¬ p.Endless) : p.Faithful where
  exact := exact
  once has := by
    have twice := (has_leaf list map).mp has
    cases p with
    | map entries => exact map entries rfl
    | _ => exact twice
  finite := (has_leaf list map).not.mpr finite

theorem faithful_null : Faithful .null := .of_leaf nofun nofun .null nofun

theorem faithful_bool (b : Bool) : Faithful (.bool b) := .of_leaf nofun nofun (.bool b) nofun

theorem faithful_int (n : Int) : Faithful (.int n) := .of_leaf nofun nofun (.int n) nofun

theorem faithful_text (s : String) : Faithful (.text s) := .of_leaf nofun nofun (.text s) nofun

theorem faithful_list {items : List Payload} :
    Faithful (.list items) ↔ ∀ item ∈ items, item.Faithful := by
  constructor
  · rintro ⟨exact, once, finite⟩ item inside
    cases exact with
    | list each =>
        exact ⟨each item inside, fun has => once (has_list.mpr (.inr ⟨item, inside, has⟩)),
          fun has => finite (has_list.mpr (.inr ⟨item, inside, has⟩))⟩
  · intro each
    refine ⟨.list fun item inside => (each item inside).exact, fun has => ?_, fun has => ?_⟩
    · obtain ⟨⟨⟩⟩ | ⟨item, inside, has⟩ := has_list.mp has
      exact (each item inside).once has
    · obtain ⟨⟨⟩⟩ | ⟨item, inside, has⟩ := has_list.mp has
      exact (each item inside).finite has

theorem faithful_map {entries : Entries} :
    Faithful (.map entries) ↔ (∀ entry ∈ entries, ∃ s, entry.1 = .text s) ∧
      (Assoc.keys entries).Nodup ∧ ∀ entry ∈ entries, entry.2.Faithful := by
  constructor
  · rintro ⟨exact, once, finite⟩
    cases exact with
    | map keys each =>
        refine ⟨keys, Classical.not_not.mp fun twice => once (has_map.mpr (.inl twice)),
          fun entry inside => ⟨each entry inside, fun has => ?_, fun has => ?_⟩⟩
        · exact once (has_map.mpr (.inr ⟨entry, inside, has⟩))
        · exact finite (has_map.mpr (.inr ⟨entry, inside, has⟩))
  · rintro ⟨keys, distinct, each⟩
    refine ⟨.map keys fun entry inside => (each entry inside).exact, fun has => ?_, fun has => ?_⟩
    · obtain twice | ⟨entry, inside, has⟩ := has_map.mp has
      · exact twice distinct
      · exact (each entry inside).once has
    · obtain ⟨⟨⟩⟩ | ⟨entry, inside, has⟩ := has_map.mp has
      exact (each entry inside).finite has

theorem faithful_texts (texts : List String) : Faithful (.list (texts.map .text)) := by
  rw [faithful_list, List.forall_mem_map]
  exact fun s _ => faithful_text s

/-- The mapping of named payloads. -/
def named (fields : List (String × Payload)) : Payload :=
  .map (fields.map fun (key, item) => (.text key, item))

/-- Payloads under distinct names. -/
theorem faithful_named {fields : List (String × Payload)} :
    Faithful (.named fields) ↔
      (Assoc.keys fields).Nodup ∧ ∀ field ∈ fields, field.2.Faithful := by
  have keys : Assoc.keys (fields.map fun (key, item) => (Payload.text key, item)) =
      (Assoc.keys fields).map .text := by
    unfold Assoc.keys
    rw [List.map_map, List.map_map]
    rfl
  rw [named, faithful_map, List.forall_mem_map, List.forall_mem_map, keys,
    List.nodup_map_iff fun _ _ => Payload.text.inj]
  exact and_iff_right fun field _ => ⟨field.1, rfl⟩

theorem ofItems_eq_map (items : List Json) : ofJson.ofItems items = items.map ofJson := by
  induction items with
  | nil => rfl
  | cons item rest ih => rw [ofJson.ofItems, ih, List.map_cons]

theorem ofMembers_eq_map (members : List (String × Json)) :
    ofJson.ofMembers members = members.map fun (key, item) => (.text key, ofJson item) := by
  induction members with
  | nil => rfl
  | cons member rest ih => rw [ofJson.ofMembers, ih, List.map_cons]

theorem text_of_encodable {s t : String} (written : encodable s = .ok t) : s = t := by
  unfold encodable at written
  split at written
  · cases written
  · exact Except.ok.inj written

mutual

/-- A record holds such a payload as it is. -/
theorem ofJson_of_wireIn : ∀ (room : Nat) (p : Payload) {json : Json}, p.Faithful →
    wireIn false room p = .ok json → ofJson json = p
  | _, .null, _, _, rfl => rfl
  | _, .bool _, _, _, rfl => rfl
  | _, .int _, _, _, rfl => rfl
  | _, .text _, _, _, rfl => rfl
  | _, .float (.finite _), _, _, rfl => rfl
  | _, .float (.infinite _), _, fine, _ => absurd ⟨_, .self _, .float rfl⟩ fine.finite
  | _, .float (.nan _), _, fine, _ => absurd ⟨_, .self _, .float rfl⟩ fine.finite
  | room, .list items, _, fine, taken => by
    obtain ⟨parts, all, rfl⟩ := of_nested taken
    exact congrArg Payload.list (ofItems_of_wireItems (room - 1) items (faithful_list.mp fine) all)
  | room, .map entries, _, fine, taken => by
    obtain ⟨parts, all, rfl⟩ := of_nested taken
    obtain ⟨keys, once, each⟩ := faithful_map.mp fine
    have same := ofMembers_of_wireEntries (room - 1) entries keys each all
    have names : (Assoc.keys parts).Nodup :=
      List.Nodup.of_map _ (keys_ofMembers parts ▸ same ▸ once)
    rw [Assoc.ofList_self names]
    exact congrArg Payload.map same
  | _, .bytes _, _, fine, _ | _, .tuple _, _, fine, _ | _, .set _, _, fine, _
  | _, .moment _, _, fine, _ | _, .value .., _, fine, _ => nomatch fine.exact

theorem ofItems_of_wireItems : ∀ (room : Nat) (items : List Payload) {parts : List Json},
    (∀ item ∈ items, item.Faithful) → wireItems false room items = .ok parts →
      ofJson.ofItems parts = items
  | _, [], _, _, rfl => rfl
  | room, item :: rest, _, fine, taken => by
    obtain ⟨part, others, one, all, rfl⟩ := Except.both_eq_ok.mp taken
    obtain ⟨itemFine, restFine⟩ := List.forall_mem_cons.mp fine
    rw [ofJson.ofItems, ofJson_of_wireIn room item itemFine one,
      ofItems_of_wireItems room rest restFine all]

theorem ofMembers_of_wireEntries : ∀ (room : Nat) (entries : List (Payload × Payload))
    {members : List (String × Json)}, (∀ entry ∈ entries, ∃ s, entry.1 = .text s) →
      (∀ entry ∈ entries, entry.2.Faithful) → wireEntries false room entries = .ok members →
        ofJson.ofMembers members = entries
  | _, [], _, _, _, rfl => rfl
  | room, (key, item) :: rest, _, keys, fine, taken => by
    obtain ⟨text, named, taken⟩ := Except.bind_eq_ok.mp taken
    obtain ⟨part, one, taken⟩ := Except.bind_eq_ok.mp taken
    obtain ⟨others, all, same⟩ := Except.bind_eq_ok.mp taken
    obtain rfl := Except.pure_eq_ok.mp same
    obtain ⟨⟨s, rfl⟩, otherKeys⟩ := List.forall_mem_cons.mp keys
    obtain ⟨itemFine, restFine⟩ := List.forall_mem_cons.mp fine
    obtain rfl := text_of_encodable named
    rw [ofJson.ofMembers, ofJson_of_wireIn room item itemFine one,
      ofMembers_of_wireEntries room rest otherKeys restFine all]

end

end Payload

/-! ## Chains that have been read -/

/-- A reference that can be read: its key is not empty and has no halves of characters. -/
def StoreRef.Valid (ref : StoreRef) : Prop := ref.key ≠ "" ∧ Text.hasHalf ref.key.toList = false

namespace Step

/-- A step that can be read. -/
def Valid : Step → Prop
  | source _ | sink _ => True
  | relay _ params => (Assoc.keys params).Nodup
  | store ref | load ref => ref.Valid
  | fanout sinks => sinks ≠ []
  | merge sources loads _ params =>
    2 ≤ sources.length + loads.length ∧ (∀ ref ∈ loads, ref.Valid) ∧ (Assoc.keys params).Nodup

/-- The mapping of the fields of a step. -/
def toPayload (step : Step) : Payload := .named step.fields

end Step

namespace Chain

/-- A chain that can be read. -/
structure Valid (c : Chain) : Prop where
  named : c.id ≠ ""
  whole : Text.hasHalf c.id.toList = false
  steps : ∀ step ∈ c.steps, step.Valid

/-- The fields of a chain with all defaults written out. -/
def fields (c : Chain) : List (String × Payload) :=
  [("chain_id", .text c.id), ("expected_category", .text c.expected.text),
    ("steps", .list (c.steps.map Step.toPayload)), ("name", .text c.name),
    ("description", .text c.description), ("tags", .list (c.tags.map .text))]

end Chain

namespace Payload

variable {fields : List (String × Payload)} {name : String}

theorem text?_map {α : Type} {f : α → Payload} {given : List (String × α)} :
    Entries.text? name (given.map fun (key, a) => (.text key, f a)) =
      (Assoc.find? name given).map f := by
  induction given with
  | nil => rfl
  | cons first rest ih =>
      rw [List.map_cons, Entries.text?_cons, ih, Assoc.find?]
      simp only [text.injEq]
      split <;> rfl

theorem text?_named : Entries.text? name (fields.map fun (key, item) => (.text key, item)) =
    Assoc.find? name fields :=
  text?_map.trans Option.map_id'

theorem hasField_named {α : Type} {form : Payload → α → Prop} {item : Payload} {a : α}
    (found : Assoc.find? name fields = some item) (holds : form item a) :
    HasField name form (fields.map fun (key, item) => (.text key, item)) a :=
  ⟨item, text?_named.trans found, holds⟩

theorem hasField_only {α : Type} {form : Payload → α → Prop} {item : Payload} {a : α}
    (holds : form item a) : HasField name form [(.text name, item)] a :=
  ⟨item, (Entries.text?_cons _).trans (if_pos rfl), holds⟩

theorem isEach_map {α : Type} {form : Payload → α → Prop} {write : α → Payload} {given : List α}
    (each : ∀ a ∈ given, form (write a) a) : IsEach form (.list (given.map write)) given := by
  refine ⟨_, .list _, ?_⟩
  rw [List.forall₂_map_left_iff]
  exact List.forall₂_same.mpr each

theorem isEach_texts (texts : List String) : IsEach IsText (.list (texts.map .text)) texts :=
  isEach_map fun s _ => .text s

theorem isKeyed_named (once : (Assoc.keys fields).Nodup) : IsKeyed (.named fields) fields := by
  have keyed : IsKeyed (.named fields) (Assoc.ofList fields) := by
    refine .map ?_
    rw [List.forall₂_map_left_iff]
    exact List.forall₂_same.mpr fun field _ => ⟨.text _, rfl⟩
  rwa [Assoc.ofList_self once] at keyed

end Payload

theorem StoreRef.fields_named {ref : StoreRef} {fields : List (String × Payload)}
    (valid : ref.Valid) (scope : Assoc.find? "scope" fields = some (.text ref.scope.text))
    (key : Assoc.find? "key" fields = some (.text ref.key)) :
    ref.Fields (fields.map fun (key, item) => (.text key, item)) where
  scope := Payload.hasField_named scope (.text (by cases ref.scope <;> decide))
  key := Payload.hasField_named key ⟨.text valid.2, valid.1⟩

/-- The fields of a step are read as the step. -/
theorem Step.form_toPayload {step : Step} (valid : step.Valid) :
    Step.Form step.toPayload step := by
  refine .map (Payload.text?_named.trans rfl) ?_
  cases step with
  | source id => exact .source (Payload.hasField_named rfl (.text id))
  | relay operator params =>
      exact .relay (Payload.hasField_named rfl (.text operator))
        (.inr (Payload.hasField_named rfl (Payload.isKeyed_named valid)))
  | store ref => exact .store (StoreRef.fields_named valid rfl rfl)
  | load ref => exact .load (StoreRef.fields_named valid rfl rfl)
  | fanout sinks => exact .fanout (Payload.hasField_named rfl (Payload.isEach_texts sinks)) valid
  | merge sources loads operator params =>
      obtain ⟨several, named, once⟩ := valid
      have refs : ∀ ref ∈ loads, StoreRef.Form
          (.named [("scope", .text ref.scope.text), ("key", .text ref.key)]) ref :=
        fun ref inside => .map (StoreRef.fields_named (named ref inside) rfl rfl)
      exact .merge (.inr (Payload.hasField_named rfl (Payload.isEach_texts sources)))
        (.inr (Payload.hasField_named rfl (Payload.isEach_map refs)))
        (.inr (Payload.hasField_named rfl (.text operator)))
        (.inr (Payload.hasField_named rfl (Payload.isKeyed_named once))) several
  | sink id => exact .sink (Payload.hasField_named rfl (.text id))

/-- The fields of a chain are read as the chain. -/
theorem Catalog.entry_fields {c : Chain} (valid : c.Valid) : Entry (.named c.fields) c := by
  have id : Entries.text? "chain_id" (c.fields.map fun (key, item) => (.text key, item)) =
      some (.text c.id) := Payload.text?_named
  refine .map (congrArg (Option.or · _) id) ⟨.text valid.whole, valid.named⟩ ⟨?_, ?_, ?_, ?_, ?_⟩
  · exact Payload.hasField_named rfl (.text (by cases c.expected <;> decide))
  · exact Payload.hasField_named rfl (Payload.isEach_map fun step inside =>
      Step.form_toPayload (valid.steps step inside))
  · exact .inr (Payload.hasField_named rfl (.text c.name))
  · exact .inr (Payload.hasField_named rfl (.text c.description))
  · exact .inr (Payload.hasField_named rfl (Payload.isEach_texts c.tags))

/-! ## Chains as JSON -/

namespace Step

/-- The values of all parameters have the form of JSON. -/
def Faithful (step : Step) : Prop := ∀ entry ∈ step.params, entry.2.Faithful

theorem faithful_refs (refs : List StoreRef) : Payload.Faithful (.list (refs.map fun ref =>
    .map [(.text "scope", .text ref.scope.text), (.text "key", .text ref.key)])) := by
  rw [Payload.faithful_list, List.forall_mem_map]
  intro ref _
  show Payload.Faithful (.named [("scope", .text ref.scope.text), ("key", .text ref.key)])
  rw [Payload.faithful_named]
  refine ⟨by simp [Assoc.keys], ?_⟩
  exact List.forall_mem_cons.mpr ⟨Payload.faithful_text _,
    List.forall_mem_singleton.mpr (Payload.faithful_text _)⟩

theorem faithful_fields {step : Step} (valid : step.Valid) (faithful : step.Faithful) :
    ∀ field ∈ step.fields, field.2.Faithful := by
  have text := Payload.faithful_text
  have texts := Payload.faithful_texts
  have given {params : Params} (once : (Assoc.keys params).Nodup)
      (each : ∀ entry ∈ params, entry.2.Faithful) :
      Payload.Faithful (.map (params.map fun (key, item) => (.text key, item))) :=
    Payload.faithful_named.mpr ⟨once, each⟩
  cases step with
  | source | store | load | sink => simp [fields, text]
  | fanout sinks => simp [fields, text, texts]
  | relay operator params => simp [fields, text, given valid faithful]
  | merge sources loads operator params =>
      simp [fields, text, texts, faithful_refs, given valid.2.2 faithful]

/-- The dump of a step is read as the mapping of its fields. -/
theorem ofJson_toJson {step : Step} {json : Json} (valid : step.Valid) (faithful : step.Faithful)
    (made : step.toJson = .ok json) : Payload.ofJson json = step.toPayload := by
  obtain ⟨members, all, rfl⟩ := Except.bind_pure_eq_ok.mp made
  rw [Payload.ofJson, Payload.ofMembers_eq_map]
  refine congrArg Payload.map (Except.map_eq_of_mapM_mem (fun field inside member one => ?_) all)
  obtain ⟨part, taken, rfl⟩ := Except.bind_pure_eq_ok.mp one
  exact congrArg (Prod.mk (Payload.text field.1))
    (Payload.ofJson_of_wireIn _ _ (faithful_fields valid faithful field inside) taken)

end Step

namespace Chain

/-- The values of all parameters have the form of JSON. -/
def Faithful (c : Chain) : Prop := ∀ step ∈ c.steps, step.Faithful

variable {c : Chain} {json : Json}

theorem exists_toJson : (∃ json, c.toJson = .ok json) ↔ ∀ step ∈ c.steps, step.Recordable := by
  rw [toJson, Except.exists_bind_pure_eq_ok, Except.exists_mapM_eq_ok]
  exact forall₂_congr fun step _ => Step.exists_toJson

theorem plain_toJson (made : c.toJson = .ok json) : json.Plain := by
  obtain ⟨steps, all, rfl⟩ := Except.bind_pure_eq_ok.mp made
  refine .object (by simp [Assoc.keys]) ?_
  have each : ∀ step ∈ steps, step.Plain := by
    intro step inside
    obtain ⟨_, _, one⟩ := (Except.mem_of_mapM_eq_ok all).mp inside
    exact Step.plain_toJson one
  simpa using ⟨.text _, .text _, .array each, .text _, .text _, Json.plain_ofTexts _⟩

/-- The dump of a chain is read as the mapping of its fields. -/
theorem ofJson_toJson (valid : c.Valid) (faithful : c.Faithful) (made : c.toJson = .ok json) :
    Payload.ofJson json = .named c.fields := by
  obtain ⟨steps, all, rfl⟩ := Except.bind_pure_eq_ok.mp made
  have each : steps.map Payload.ofJson = c.steps.map Step.toPayload :=
    Except.map_eq_of_mapM_mem
      (fun step inside _ => Step.ofJson_toJson (valid.steps step inside) (faithful step inside)) all
  have texts : (c.tags.map Json.text).map Payload.ofJson = c.tags.map .text := by
    rw [List.map_map]
    rfl
  simp only [Payload.ofJson, Payload.ofJson.ofMembers, Payload.ofItems_eq_map, Json.ofTexts, each,
    texts]
  rfl

/-- The chains of a catalog with a single entry, which is what the JSON text of a chain says. -/
def reread? (c : Chain) : Option (List Chain) := do
  let json ← c.toJson.toOption
  let written ← json.checkWritable.toOption
  let back ← Json.read written.write
  (Catalog.readChains [(.text "chains", .list [.ofJson back])]).toOption

theorem reread?_eq_some {chains : List Chain} :
    c.reread? = some chains ↔ ∃ json, c.toJson = .ok json ∧ json.isWritable = true ∧
      ∃ back, Json.read json.write = some back ∧
        Catalog.readChains [(.text "chains", .list [.ofJson back])] = .ok chains := by
  have checked (json written : Json) :
      json.checkWritable = .ok written ↔ json.isWritable = true ∧ json = written := by
    unfold Json.checkWritable
    cases json.isWritable with
    | false => exact ⟨nofun, fun ⟨other, _⟩ => nomatch other⟩
    | true => exact ⟨fun same => ⟨rfl, Except.ok.inj same⟩, fun ⟨_, same⟩ => congrArg _ same⟩
  simp only [reread?, Option.bind_eq_bind, Option.bind_eq_some_iff, Except.toOption_eq_some, checked]
  constructor
  · rintro ⟨json, made, _, ⟨writable, rfl⟩, back, read, taken⟩
    exact ⟨json, made, writable, back, read, taken⟩
  · rintro ⟨json, made, writable, back, read, taken⟩
    exact ⟨json, made, json, ⟨writable, rfl⟩, back, read, taken⟩

/-- **Chains survive JSON.**  A chain whose parameters have the form of JSON comes back from the text
of its dump as the only entry of a catalog: with the same id, category, names, tags and steps, and so
with the same sources and sinks and the same use of the session.  The dump has to be there, which is
a matter of the keys and the nesting of parameters, no number in it may be too long, and no text in
it may have the halves of a character side by side. -/
theorem comes_back (valid : c.Valid) (faithful : c.Faithful)
    (recordable : ∀ step ∈ c.steps, step.Recordable)
    (portable : ∀ json, c.toJson = .ok json → json.isWritable = true ∧ json.isJoined = true) :
    ∃ again, c.reread? = some [again] ∧ again = c ∧ again.sources = c.sources ∧
      again.sinks = c.sinks ∧ again.usesSession = c.usesSession := by
  obtain ⟨json, made⟩ := exists_toJson.mpr recordable
  obtain ⟨writable, joined⟩ := portable json made
  have listed : Catalog.readChains [(.text "chains", .list [.ofJson json])] = .ok [c] := by
    rw [ofJson_toJson valid faithful made, Catalog.readChains_eq_ok]
    exact .inr (Payload.hasField_only ⟨_, .list _, .cons (Catalog.entry_fields valid) .nil⟩)
  have same : c.reread? = some [c] := reread?_eq_some.mpr
    ⟨json, made, writable, json, Json.read_write_self (plain_toJson made) writable joined, listed⟩
  exact ⟨c, same, rfl, rfl, rfl, rfl⟩

/-- A chain with a step of each kind. -/
def everyKind : Chain where
  id := "every-kind"
  expected := .sql
  steps := [
    .source "form",
    .relay "concat" [("prefix", .text "SELECT "),
      ("options", .map [(.text "h\u00e9", .list [.int (-1), .bool true, .null])])],
    .store ⟨.session, "query"⟩,
    .load ⟨.session, "query"⟩,
    .merge ["form", "form"] [⟨.session, "query"⟩] Step.usualMerge [],
    .fanout ["log", "sql"],
    .sink "sql"]
  steps_ne := nofun
  name := "One of each"
  tags := ["a", "b"]

theorem everyKind_comes_back : everyKind.Valid ∧ everyKind.Faithful ∧
    everyKind.reread? = some [everyKind] := by
  have valid : everyKind.Valid := by
    refine ⟨by decide, by decide, ?_⟩
    simp [everyKind, Step.Valid, StoreRef.Valid, Assoc.keys]
    decide
  have faithful : everyKind.Faithful := by
    simp only [Chain.Faithful, Step.Faithful, everyKind, Step.params, List.forall_mem_cons,
      List.not_mem_nil, false_imp_iff, implies_true, and_true, true_and]
    exact ⟨Payload.faithful_text _, by
      simp [Payload.faithful_map, Payload.faithful_list, Assoc.keys,
        Payload.faithful_null, Payload.faithful_bool, Payload.faithful_int]⟩
  have recordable : ∀ step ∈ everyKind.steps, step.Recordable := exists_toJson.mp ⟨_, rfl⟩
  obtain ⟨again, same, rfl, _⟩ := comes_back valid faithful recordable fun json made => by
    obtain rfl := Except.ok.inj (made.symm.trans rfl)
    decide +kernel
  exact ⟨valid, faithful, same⟩

/-- A chain with a name and a parameter. -/
def noted (name : String) (note : Payload) : Chain where
  id := "noted"
  expected := .command
  steps := [.source "form", .relay "identity" [("note", note)], .sink "shell"]
  steps_ne := nofun
  name := name

theorem valid_noted (name : String) (note : Payload) : (noted name note).Valid :=
  ⟨by simp [noted], (by decide : Text.hasHalf "noted".toList = false),
    by simp [noted, Step.Valid, Assoc.keys]⟩

theorem faithful_noted (name : String) {note : Payload} (faithful : note.Faithful) :
    (noted name note).Faithful := by
  simp [Chain.Faithful, Step.Faithful, noted, Step.params, faithful]

/-- What cannot be recorded keeps a chain from coming back. -/
theorem reread?_noted_ne {name : String} {note : Payload}
    (lost : ¬ (note.Spelt ∧ note.nesting < Payload.maxDepth)) {chains : List Chain} :
    (noted name note).reread? ≠ some chains := by
  intro same
  obtain ⟨json, made, _⟩ := reread?_eq_some.mp same
  have recordable := exists_toJson.mp ⟨json, made⟩ (.relay "identity" [("note", note)])
    (List.mem_cons_of_mem _ List.mem_cons_self)
  exact lost (recordable _ List.mem_cons_self).2

/-- Lists in lists. -/
def nested : Nat → Payload
  | 0 => .null
  | depth + 1 => .list [nested depth]

theorem faithful_nested (depth : Nat) : (nested depth).Faithful := by
  induction depth with
  | zero => exact Payload.faithful_null
  | succ depth ih => exact Payload.faithful_list.mpr (List.forall_mem_singleton.mpr ih)

theorem nesting_nested (depth : Nat) : (nested depth).nesting = depth := by
  induction depth with
  | zero => rfl
  | succ depth ih =>
      rw [nested, Payload.nesting, Payload.nestingOfItems, ih, Payload.nestingOfItems, Nat.max_zero]

/-- The name of the only chain of a catalog is the one in its entry. -/
theorem name_of_readChains {back name : Json}
    (taken : Catalog.readChains [(.text "chains", .list [.ofJson back])] = .ok [c])
    (given : back.member? "name" = some name) : (Payload.ofJson name).IsText c.name := by
  have chains : Entries.text? "chains" [(.text "chains", Payload.list [.ofJson back])] =
      some (.list [.ofJson back]) := by
    rw [Entries.text?_cons, if_pos rfl]
  obtain ⟨absent, _⟩ | ⟨p, there, _, sequence, each⟩ := Catalog.readChains_eq_ok.mp taken
  · cases chains.symm.trans absent
  obtain rfl := Option.some.inj (chains.symm.trans there)
  cases sequence
  obtain _ | ⟨entry, _⟩ := each
  cases back with
  | object members =>
      have found : Entries.text? "name" (Payload.ofJson.ofMembers members) =
          some (Payload.ofJson name) := by
        have given : Assoc.find? "name" members = some name := given
        rw [Payload.ofMembers_eq_map, Payload.text?_map, given]
        rfl
      obtain ⟨_, _, body⟩ := entry
      obtain ⟨absent, _⟩ | ⟨_, there, text⟩ := body.name
      · cases found.symm.trans absent
      · exact Option.some.inj (found.symm.trans there) ▸ text
  | _ => cases given

/-- The two halves of a character, one after the other. -/
def halves : String := .ofList [Text.charOf 0xD83D, Text.charOf 0xDE00]

/-- A chain whose data JSON can hold and that does not come back. -/
def Lost (c : Chain) : Prop := c.Valid ∧ c.Faithful ∧ c.reread? ≠ some [c]

/-- Numbers that are too long, keys with half a character and lists in lists keep a chain from coming
back, and halves of a character come back as one. -/
theorem not_every_chain_comes_back : Lost (noted "" (.int (10 ^ 4300))) ∧
    Lost (noted "" (.map [(.text (.ofList [Text.charOf 0xD800]), .int 1)])) ∧
    Lost (noted "" (nested 254)) ∧ Lost (noted halves .null) := by
  refine ⟨⟨valid_noted _ _, faithful_noted _ (Payload.faithful_int _), fun same => ?_⟩,
    ⟨valid_noted _ _, faithful_noted _ ?_, reread?_noted_ne ?_⟩,
    ⟨valid_noted _ _, faithful_noted _ (faithful_nested 254), reread?_noted_ne ?_⟩,
    ⟨valid_noted _ _, faithful_noted _ Payload.faithful_null, fun same => ?_⟩⟩
  · obtain ⟨json, made, writable, _⟩ := reread?_eq_some.mp same
    obtain rfl := Except.ok.inj (made.symm.trans rfl)
    exact absurd writable (by decide +kernel)
  · simp [Payload.faithful_map, Assoc.keys, Payload.faithful_int]
  · rintro ⟨spelt, _⟩
    cases spelt with
    | map keys each =>
        cases keys _ List.mem_cons_self with
        | text whole => exact absurd whole (by decide)
  · rw [nesting_nested]
    rintro ⟨_, shallow⟩
    exact absurd shallow (by decide)
  · obtain ⟨json, made, _, back, read, taken⟩ := reread?_eq_some.mp same
    obtain rfl := Except.ok.inj (made.symm.trans rfl)
    rw [Json.read_write] at read
    obtain rfl := Option.some.inj (read.symm.trans rfl)
    have text : Payload.IsText (.text "😀") halves := name_of_readChains taken rfl
    exact absurd (Except.ok.inj (Payload.readText_eq_ok.mpr text)) (by decide)

end Chain

end TaintFlow
