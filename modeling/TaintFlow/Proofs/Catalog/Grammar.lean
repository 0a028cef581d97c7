import Mathlib
import TaintFlow.Catalog
import TaintFlow.Proofs.Catalog.Registration
import TaintFlow.Proofs.Payload.Reading

/-!
# The grammar of catalogs

The form of a catalog is said part by part: references to stored values, the seven
kinds of steps, chains, and the document that lists them.  Every reader takes
payloads of its form and no others.  The main statement is `parse_outcome`: what
a text is read as, or how it is refused, is settled by the form of its document.
-/

namespace TaintFlow

open Payload (Entries HasField HasFieldOr IsEach IsKeyed IsName IsNonempty IsText)

/-! ## References to stored values -/

namespace StoreRef

/-- Fields that name a stored value. -/
structure Fields (entries : Entries) (ref : StoreRef) : Prop where
  scope : HasField "scope" IsName entries ref.scope
  key : HasField "key" IsNonempty entries ref.key

/-- A mapping that names a stored value. -/
inductive Form : Payload → StoreRef → Prop where
  | map {entries : Entries} {ref : StoreRef} (fields : Fields entries ref) : Form (.map entries) ref

theorem read_eq_ok {entries : Entries} {ref : StoreRef} :
    StoreRef.read entries = .ok ref ↔ Fields entries ref := by
  unfold StoreRef.read
  rw [Checked.apply_eq_ok]
  simp only [Except.map_eq_ok, Payload.field_eq_ok fun _ _ => Payload.readName_eq_ok,
    Payload.field_eq_ok fun _ _ => Payload.readNonempty_eq_ok]
  constructor
  · rintro ⟨_, key, ⟨scope, named, rfl⟩, written, rfl⟩
    exact ⟨named, written⟩
  · rintro ⟨named, written⟩
    exact ⟨_, _, ⟨_, named, rfl⟩, written, rfl⟩

theorem ofPayload_eq_ok {p : Payload} {ref : StoreRef} : ofPayload p = .ok ref ↔ Form p ref := by
  cases p with
  | map entries => exact read_eq_ok.trans ⟨.map, fun | .map fields => fields⟩
  | _ => exact ⟨nofun, nofun⟩

end StoreRef

/-! ## Steps -/

namespace Step

/-- The fields of a step beside its kind. -/
inductive Fields (entries : Entries) : Step → Prop where
  | source {id : String} (asked : HasField "source_id" IsText entries id) :
      Fields entries (.source id)
  | relay {operator : String} {params : Params}
      (applied : HasField "operator_id" IsText entries operator)
      (given : HasFieldOr "params" [] IsKeyed entries params) :
      Fields entries (.relay operator params)
  | store {target : StoreRef} (named : target.Fields entries) : Fields entries (.store target)
  | load {origin : StoreRef} (named : origin.Fields entries) : Fields entries (.load origin)
  | fanout {sinks : List String} (served : HasField "sink_ids" (IsEach IsText) entries sinks)
      (some_ : sinks ≠ []) : Fields entries (.fanout sinks)
  | merge {sources : List String} {loads : List StoreRef} {operator : String} {params : Params}
      (asked : HasFieldOr "source_ids" [] (IsEach IsText) entries sources)
      (named : HasFieldOr "loads" [] (IsEach StoreRef.Form) entries loads)
      (applied : HasFieldOr "operator_id" usualMerge IsText entries operator)
      (given : HasFieldOr "params" [] IsKeyed entries params)
      (several : 2 ≤ sources.length + loads.length) :
      Fields entries (.merge sources loads operator params)
  | sink {id : String} (served : HasField "sink_id" IsText entries id) : Fields entries (.sink id)

/-- A mapping that gives the kind of a step and its fields. -/
inductive Form : Payload → Step → Prop where
  | map {entries : Entries} {step : Step}
      (kind : Entries.text? "kind" entries = some (.text step.kind.text))
      (fields : Fields entries step) : Form (.map entries) step

theorem readParams_eq_ok {entries : Entries} {params : Params} :
    readParams entries = .ok params ↔ HasFieldOr "params" [] IsKeyed entries params :=
  Payload.fieldOr_eq_ok fun _ _ => Payload.readKeyed_eq_ok

theorem checkMerge_eq_ok {sources : List String} {loads : List StoreRef} {operator : String}
    {params : Params} {step : Step} :
    checkMerge sources loads operator params = .ok step ↔
      2 ≤ sources.length + loads.length ∧ step = .merge sources loads operator params := by
  unfold checkMerge
  split
  · rename_i few
    exact ⟨nofun, fun ⟨several, _⟩ => absurd several (Nat.not_le_of_lt few)⟩
  · rename_i several
    exact ⟨fun same => ⟨Nat.le_of_not_lt several, (Except.ok.inj same).symm⟩,
      fun ⟨_, same⟩ => congrArg Except.ok same.symm⟩

theorem readMerge_eq_ok {entries : Entries} {step : Step} :
    readKind entries .merge = .ok step ↔ Fields entries step ∧ step.kind = .merge := by
  unfold readKind
  rw [Except.bind_eq_ok]
  simp only [Checked.both_eq_ok, Prod.exists, readParams_eq_ok,
    Payload.fieldOr_eq_ok fun _ _ => Payload.readText_eq_ok,
    Payload.fieldOr_eq_ok fun _ _ => Payload.readEach_eq_ok fun _ _ => Payload.readText_eq_ok,
    Payload.fieldOr_eq_ok fun _ _ => Payload.readEach_eq_ok fun _ _ => StoreRef.ofPayload_eq_ok]
  constructor
  · rintro ⟨sources, loads, operator, params, ⟨⟨⟨asked, named⟩, applied⟩, given⟩, checked⟩
    obtain ⟨several, rfl⟩ := checkMerge_eq_ok.mp checked
    exact ⟨.merge asked named applied given several, rfl⟩
  · rintro ⟨fields, kind⟩
    cases fields with
    | merge asked named applied given several =>
        exact ⟨_, _, _, _, ⟨⟨⟨asked, named⟩, applied⟩, given⟩, checkMerge_eq_ok.mpr ⟨several, rfl⟩⟩
    | _ => cases kind

/-- The reader of a kind takes the fields of the steps of this kind. -/
theorem readKind_eq_ok {entries : Entries} {kind : StepKind} {step : Step} :
    readKind entries kind = .ok step ↔ Fields entries step ∧ step.kind = kind := by
  cases kind with
  | source =>
      unfold readKind
      rw [Except.map_eq_ok]
      simp only [Payload.field_eq_ok fun _ _ => Payload.readText_eq_ok]
      constructor
      · rintro ⟨id, asked, rfl⟩
        exact ⟨.source asked, rfl⟩
      · rintro ⟨_ | _ | _ | _ | _ | _ | _, kind⟩ <;> cases kind
        exact ⟨_, ‹_›, rfl⟩
  | relay =>
      unfold readKind
      rw [Checked.apply_eq_ok]
      simp only [Except.map_eq_ok, Payload.field_eq_ok fun _ _ => Payload.readText_eq_ok,
        readParams_eq_ok]
      constructor
      · rintro ⟨_, params, ⟨operator, applied, rfl⟩, given, rfl⟩
        exact ⟨.relay applied given, rfl⟩
      · rintro ⟨_ | _ | _ | _ | _ | _ | _, kind⟩ <;> cases kind
        exact ⟨_, _, ⟨_, ‹_›, rfl⟩, ‹_›, rfl⟩
  | store =>
      unfold readKind
      rw [Except.map_eq_ok]
      simp only [StoreRef.read_eq_ok]
      constructor
      · rintro ⟨target, named, rfl⟩
        exact ⟨.store named, rfl⟩
      · rintro ⟨_ | _ | _ | _ | _ | _ | _, kind⟩ <;> cases kind
        exact ⟨_, ‹_›, rfl⟩
  | load =>
      unfold readKind
      rw [Except.map_eq_ok]
      simp only [StoreRef.read_eq_ok]
      constructor
      · rintro ⟨origin, named, rfl⟩
        exact ⟨.load named, rfl⟩
      · rintro ⟨_ | _ | _ | _ | _ | _ | _, kind⟩ <;> cases kind
        exact ⟨_, ‹_›, rfl⟩
  | fanout =>
      unfold readKind
      rw [Except.map_eq_ok]
      simp only [Payload.field_eq_ok fun _ _ => Payload.readSome_eq_ok fun _ _ =>
        Payload.readText_eq_ok]
      constructor
      · rintro ⟨sinks, ⟨p, found, each, some_⟩, rfl⟩
        exact ⟨.fanout ⟨p, found, each⟩ some_, rfl⟩
      · rintro ⟨fields, kind⟩
        cases fields with
        | fanout served some_ =>
            obtain ⟨p, found, each⟩ := served
            exact ⟨_, ⟨p, found, each, some_⟩, rfl⟩
        | _ => cases kind
  | merge => exact readMerge_eq_ok
  | sink =>
      unfold readKind
      rw [Except.map_eq_ok]
      simp only [Payload.field_eq_ok fun _ _ => Payload.readText_eq_ok]
      constructor
      · rintro ⟨id, served, rfl⟩
        exact ⟨.sink served, rfl⟩
      · rintro ⟨_ | _ | _ | _ | _ | _ | _, kind⟩ <;> cases kind
        exact ⟨_, ‹_›, rfl⟩

theorem read_eq_ok {p : Payload} {step : Step} : Step.read p = .ok step ↔ Form p step := by
  cases p with
  | map entries =>
      have form : Form (.map entries) step ↔
          Entries.text? "kind" entries = some (.text step.kind.text) ∧ Fields entries step :=
        ⟨fun | .map kind fields => ⟨kind, fields⟩, fun ⟨kind, fields⟩ => .map kind fields⟩
      rw [form, Step.read]
      split
      · rename_i tag
        exact ⟨nofun, fun ⟨named, _⟩ => nomatch tag.symm.trans named⟩
      · rename_i name tag
        split
        · rename_i kind known
          obtain rfl : name = kind.text := Enumeration.ofName?_eq_some_iff.mp known
          rw [Checked.under_eq_ok, readKind_eq_ok]
          constructor
          · rintro ⟨fields, rfl⟩
            exact ⟨tag, fields⟩
          · rintro ⟨named, fields⟩
            have texts := Payload.text.inj (Option.some.inj (tag.symm.trans named))
            exact ⟨fields, (Enumeration.name_injective _ _ texts).symm⟩
        · rename_i unknown
          refine ⟨nofun, fun ⟨named, _⟩ => ?_⟩
          obtain rfl := Payload.text.inj (Option.some.inj (tag.symm.trans named))
          cases unknown.symm.trans (Enumeration.ofName?_name step.kind)
      · rename_i _ other tag
        refine ⟨nofun, fun ⟨named, _⟩ => ?_⟩
        exact absurd (Option.some.inj (tag.symm.trans named)) (other _)
  | _ => exact ⟨nofun, nofun⟩

end Step

/-! ## Chains -/

namespace Chain

/-- The fields of a chain beside its id. -/
structure Body (entries : Entries) (c : Chain) : Prop where
  expected : HasField "expected_category" IsName entries c.expected
  steps : HasField "steps" (IsEach Step.Form) entries c.steps
  name : HasFieldOr "name" "" IsText entries c.name
  description : HasFieldOr "description" "" IsText entries c.description
  tags : HasFieldOr "tags" [] (IsEach IsText) entries c.tags

/-- A mapping that gives the id of a chain and its other fields. -/
inductive Form : Payload → Chain → Prop where
  | map {entries : Entries} {c : Chain} (id : HasField "chain_id" IsNonempty entries c.id)
      (body : Body entries c) : Form (.map entries) c

theorem readSteps_eq_ok {p : Payload} {steps : { steps : List Step // steps ≠ [] }} :
    readSteps p = .ok steps ↔ p.IsEach Step.Form steps.val := by
  unfold readSteps
  rw [Except.bind_eq_ok]
  simp only [Payload.readEach_eq_ok fun _ _ => Step.read_eq_ok]
  constructor
  · rintro ⟨read, each, checked⟩
    split at checked
    · obtain rfl := Except.pure_eq_ok.mp checked
      exact each
    · cases checked
  · intro each
    refine ⟨steps.val, each, ?_⟩
    rw [dif_pos steps.property]
    rfl

theorem read_eq_ok {entries : Entries} {c : Chain} :
    Chain.read entries = .ok c ↔
      HasField "chain_id" IsNonempty entries c.id ∧ Body entries c := by
  unfold Chain.read
  simp only [Checked.apply_eq_ok, Except.map_eq_ok,
    Payload.field_eq_ok fun _ _ => Payload.readNonempty_eq_ok,
    Payload.field_eq_ok fun _ _ => Payload.readName_eq_ok,
    Payload.field_eq_ok fun _ _ => readSteps_eq_ok,
    Payload.fieldOr_eq_ok fun _ _ => Payload.readText_eq_ok,
    Payload.fieldOr_eq_ok fun _ _ => Payload.readEach_eq_ok fun _ _ => Payload.readText_eq_ok]
  constructor
  · rintro ⟨_, tags, ⟨_, description, ⟨_, name, ⟨_, steps, ⟨_, expected, ⟨id, named, rfl⟩,
      reaches, rfl⟩, listed, rfl⟩, called, rfl⟩, described, rfl⟩, tagged, rfl⟩
    exact ⟨named, reaches, listed, called, described, tagged⟩
  · rintro ⟨named, reaches, listed, called, described, tagged⟩
    obtain ⟨p, found, each⟩ := listed
    exact ⟨_, _, ⟨_, _, ⟨_, _, ⟨_, ⟨c.steps, c.steps_ne⟩, ⟨_, _, ⟨_, named, rfl⟩, reaches, rfl⟩,
      ⟨p, found, each⟩, rfl⟩, called, rfl⟩, described, rfl⟩, tagged, rfl⟩

theorem ofPayload_eq_ok {p : Payload} {c : Chain} : ofPayload p = .ok c ↔ Form p c := by
  cases p with
  | map entries =>
      exact read_eq_ok.trans ⟨fun ⟨id, body⟩ => .map id body, fun | .map id body => ⟨id, body⟩⟩
  | _ => exact ⟨nofun, nofun⟩

/-- What a chain is apart from its id is settled by what stands under the names of its fields. -/
theorem Body.of_same {given other : Entries} {c : Chain}
    (same : ∀ name, name ≠ "chain_id" → name ≠ "id" →
      Entries.text? name given = Entries.text? name other) (body : Body given c) : Body other c where
  expected := body.expected.of_same (same _ (by decide) (by decide))
  steps := body.steps.of_same (same _ (by decide) (by decide))
  name := body.name.of_same (same _ (by decide) (by decide))
  description := body.description.of_same (same _ (by decide) (by decide))
  tags := body.tags.of_same (same _ (by decide) (by decide))

end Chain

/-! ## Catalogs -/

namespace Catalog

/-- A chain in a catalog: its id may stand under `id` where there is no `chain_id`. -/
inductive Entry : Payload → Chain → Prop where
  | map {entries : Entries} {id : Payload} {c : Chain}
      (given : (Entries.text? "chain_id" entries).or (Entries.text? "id" entries) = some id)
      (named : id.IsNonempty c.id) (body : c.Body entries) : Entry (.map entries) c

/-- The document of a catalog: one that counts as nothing, or a mapping in which a sequence of
chains with distinct ids may be listed. -/
inductive Form : Payload → List Chain → Prop where
  | nothing {doc : Payload} (absent : doc.isPresent = false) : Form doc []
  | mapping {fields : Entries} {chains : List Chain}
      (listed : HasFieldOr "chains" [] (IsEach Entry) fields chains)
      (distinct : (chains.map Chain.id).Nodup) : Form (.map fields) chains

/-- A chain that has its id under `id` has the id and the other fields of the entry. -/
theorem ofPayload_renamed {fields : Entries} {id : Payload} {c : Chain} :
    Chain.Form (.map ((.text "chain_id", id) ::
        fields.filter fun (key, _) => !key.same (.text "id"))) c ↔
      id.IsNonempty c.id ∧ c.Body fields := by
  have others : ∀ name, name ≠ "chain_id" → name ≠ "id" →
      Entries.text? name ((.text "chain_id", id) ::
        fields.filter fun (key, _) => !key.same (.text "id")) = Entries.text? name fields := by
    intro name notChain notId
    rw [Payload.Entries.text?_cons, if_neg fun same => notChain (Payload.text.inj same).symm,
      Payload.Entries.text?_filter_of_ne notId]
  have own : Entries.text? "chain_id" ((.text "chain_id", id) ::
      fields.filter fun (key, _) => !key.same (.text "id")) = some id := by
    rw [Payload.Entries.text?_cons, if_pos rfl]
  constructor
  · rintro ⟨⟨p, found, named⟩, body⟩
    obtain rfl := Option.some.inj (own.symm.trans found)
    exact ⟨named, body.of_same others⟩
  · rintro ⟨named, body⟩
    exact .map ⟨id, own, named⟩ (body.of_same fun name one other => (others name one other).symm)

theorem ofPayload_withId_eq_ok {p : Payload} {c : Chain} :
    Chain.ofPayload (withId p) = .ok c ↔ Entry p c := by
  rw [Chain.ofPayload_eq_ok]
  cases p with
  | map fields =>
      have entry : Entry (.map fields) c ↔ ∃ id,
          (Entries.text? "chain_id" fields).or (Entries.text? "id" fields) = some id ∧
            id.IsNonempty c.id ∧ c.Body fields :=
        ⟨fun | .map given named body => ⟨_, given, named, body⟩,
          fun ⟨_, given, named, body⟩ => .map given named body⟩
      have whole : Chain.Form (.map fields) c ↔ ∃ id,
          Entries.text? "chain_id" fields = some id ∧ id.IsNonempty c.id ∧ c.Body fields :=
        ⟨fun | .map ⟨id, found, named⟩ body => ⟨id, found, named, body⟩,
          fun ⟨id, found, named, body⟩ => .map ⟨id, found, named⟩ body⟩
      rw [entry, withId]
      cases own : Entries.text? "chain_id" fields with
      | some id =>
          rw [whole, own]
          rfl
      | none =>
          cases other : Entries.text? "id" fields with
          | some id =>
              rw [ofPayload_renamed]
              exact ⟨fun both => ⟨id, rfl, both⟩, fun ⟨_, same, both⟩ => Option.some.inj same ▸ both⟩
          | none =>
              rw [whole, own]
              rfl
  | _ => exact ⟨nofun, nofun⟩

theorem readChains_eq_ok {fields : Entries} {chains : List Chain} :
    readChains fields = .ok chains ↔ HasFieldOr "chains" [] (IsEach Entry) fields chains := by
  have field : readChains fields =
      Payload.fieldOr "chains" [] (Payload.readEach fun p => Chain.ofPayload (withId p)) fields := by
    unfold readChains Payload.fieldOr
    cases Entries.text? "chains" fields <;> rfl
  rw [field]
  exact Payload.fieldOr_eq_ok fun _ _ => Payload.readEach_eq_ok fun _ _ => ofPayload_withId_eq_ok

theorem repeatedId?_eq_none {seen : List String} {chains : List Chain} :
    repeatedId? seen chains = none ↔
      (chains.map Chain.id).Nodup ∧ ∀ c ∈ chains, c.id ∉ seen := by
  refine ⟨nodup_of_repeatedId?, ?_⟩
  induction chains generalizing seen with
  | nil => exact fun _ => rfl
  | cons c rest ih =>
      rintro ⟨distinct, fresh⟩
      obtain ⟨apart, distinct⟩ := List.nodup_cons.mp distinct
      obtain ⟨unseen, fresh⟩ := List.forall_mem_cons.mp fresh
      rw [repeatedId?, if_neg (mt List.contains_iff_mem.mp unseen)]
      refine ih ⟨distinct, fun other inside => ?_⟩
      rw [List.mem_cons]
      rintro (same | before)
      · exact apart (same ▸ List.mem_map_of_mem inside)
      · exact fresh other inside before

/-- The chains that a mapping lists, if their ids are distinct. -/
theorem ofPayload_map_eq_ok {fields : Entries} {chains : List Chain} (some_ : fields ≠ []) :
    ofPayload (.map fields) = .ok chains ↔
      HasFieldOr "chains" [] (IsEach Entry) fields chains ∧ (chains.map Chain.id).Nodup := by
  have present : (Payload.map fields).isPresent = true := by
    rw [Payload.isPresent, Bool.not_eq_true', List.isEmpty_eq_false_iff]
    exact some_
  rw [ofPayload, present, ← readChains_eq_ok]
  cases read : readChains fields with
  | error issues =>
      constructor
      · rintro ⟨⟩
      · rintro ⟨⟨⟩, _⟩
  | ok found =>
      have distinct : repeatedId? [] found = none ↔ _ := repeatedId?_eq_none
      have named : Checked.named "ChainCatalog" (.ok found) = .ok found := rfl
      rw [if_neg (by decide)]
      simp only [named]
      cases repeated : repeatedId? [] found with
      | none =>
          obtain ⟨once, _⟩ := distinct.mp repeated
          constructor
          · rintro ⟨⟩
            exact ⟨rfl, once⟩
          · rintro ⟨⟨⟩, _⟩
            rfl
      | some id =>
          constructor
          · rintro ⟨⟩
          rintro ⟨⟨⟩, once⟩
          cases repeated.symm.trans (distinct.mpr ⟨once, fun _ _ => List.not_mem_nil⟩)

theorem ofPayload_eq_ok {doc : Payload} {chains : List Chain} :
    ofPayload doc = .ok chains ↔ Form doc chains := by
  cases present : doc.isPresent with
  | false =>
      unfold ofPayload
      rw [present]
      constructor
      · rintro ⟨⟩
        exact .nothing present
      · intro form
        cases form with
        | nothing => rfl
        | @mapping fields _ listed _ =>
            obtain rfl : fields = [] := by simpa [Payload.isPresent] using present
            obtain ⟨_, rfl⟩ | ⟨_, found, _⟩ := listed
            · rfl
            · cases found
  | true =>
      cases doc with
      | map fields =>
          have some_ : fields ≠ [] := by
            rintro rfl
            cases present
          rw [ofPayload_map_eq_ok some_]
          refine ⟨fun ⟨listed, distinct⟩ => .mapping listed distinct, fun form => ?_⟩
          cases form with
          | nothing absent => cases present.symm.trans absent
          | mapping listed distinct => exact ⟨listed, distinct⟩
      | _ =>
          unfold ofPayload
          rw [present]
          refine ⟨nofun, fun form => ?_⟩
          cases form with
          | nothing absent => cases present.symm.trans absent

theorem parse_eq_ok {text origin : String} {chains : List Chain} :
    parse text origin = .ok chains ↔ ∃ doc, Yaml.load text.toList = .ok doc ∧ Form doc chains := by
  unfold parse
  cases Yaml.load text.toList with
  | error why => cases why <;> exact ⟨nofun, fun ⟨_, other, _⟩ => nomatch other⟩
  | ok doc =>
      dsimp only
      rw [Except.mapError_eq_ok, ofPayload_eq_ok]
      exact ⟨fun form => ⟨doc, rfl, form⟩, fun ⟨_, same, form⟩ => Except.ok.inj same ▸ form⟩

theorem parse_eq_failed {text origin : String} :
    (∃ flaw, parse text origin = .error (failed origin flaw)) ↔
      Yaml.load text.toList = .error .malformed ∨
        ∃ doc, Yaml.load text.toList = .ok doc ∧ ∀ chains, ¬ Form doc chains := by
  unfold parse
  cases Yaml.load text.toList with
  | error why =>
      cases why with
      | malformed => exact ⟨fun _ => .inl rfl, fun _ => ⟨.unreadable, rfl⟩⟩
      | mishap m =>
          refine ⟨nofun, ?_⟩
          rintro (other | ⟨_, other, _⟩) <;> cases other
  | ok doc =>
      simp only [Except.mapError_eq_error]
      constructor
      · rintro ⟨flaw, cause, refused, _⟩
        refine .inr ⟨doc, rfl, fun chains form => ?_⟩
        cases refused.symm.trans (ofPayload_eq_ok.mpr form)
      · rintro (other | ⟨_, same, formless⟩)
        · cases other
        · obtain rfl := Except.ok.inj same
          cases read : ofPayload doc with
          | ok chains => exact absurd (ofPayload_eq_ok.mp read) (formless chains)
          | error flaw => exact ⟨flaw, flaw, rfl, rfl⟩

theorem parse_eq_mishap {text origin : String} {m : Mishap} :
    parse text origin = .error (.mishap m) ↔ Yaml.load text.toList = .error (.mishap m) := by
  unfold parse
  cases Yaml.load text.toList with
  | error why =>
      cases why with
      | malformed => exact ⟨nofun, nofun⟩
      | mishap other => constructor <;> rintro ⟨⟩ <;> rfl
  | ok doc =>
      refine ⟨fun failed_ => ?_, nofun⟩
      obtain ⟨_, _, other⟩ := Except.mapError_eq_error.mp failed_
      cases other

/-- **What the text of a catalog is read as.**  It is read as a list of chains exactly if its
document has the form of a catalog with these chains, in this order.  It is refused as a catalog
exactly if it is no YAML or its document has no such form.  The only other outcome is that of a
scalar in it that cannot be converted. -/
theorem parse_outcome (text origin : String) :
    (∀ chains, parse text origin = .ok chains ↔
      ∃ doc, Yaml.load text.toList = .ok doc ∧ Form doc chains) ∧
    ((∃ flaw, parse text origin = .error (failed origin flaw)) ↔
      Yaml.load text.toList = .error .malformed ∨
        ∃ doc, Yaml.load text.toList = .ok doc ∧ ∀ chains, ¬ Form doc chains) ∧
    ∀ m, parse text origin = .error (.mishap m) ↔ Yaml.load text.toList = .error (.mishap m) :=
  ⟨fun _ => parse_eq_ok, parse_eq_failed, fun _ => parse_eq_mishap⟩

/-- The text of a day that is none of the calendar. -/
def noDay : List Char := ['2', '0', '2', '3', '-', '1', '3', '-', '4', '5']

/-- The only document of the text is a scalar. -/
theorem document_noDay : Yaml.Document.ofText? noDay =
    .ok (some ⟨.scalar (Yaml.Tag.ofPlain (String.ofList noDay)) (String.ofList noDay) 1, []⟩) := by
  have tokens : Yaml.tokens noDay = [.scalar (String.ofList noDay) true, .textEnd] := by cbv
  unfold Yaml.Document.ofText?
  rw [tokens]
  rfl

/-- The scalar has the form of a day. -/
theorem ofPlain_noDay : Yaml.Tag.ofPlain (String.ofList noDay) = .moment := by
  have truth : Yaml.Tag.isTruth (String.ofList noDay) = false := by cbv
  have nothing : (Yaml.Tag.spellings "null").contains (String.ofList noDay) = false := by cbv
  have row : (if noDay.getLast? == some '\n' then noDay.dropLast else noDay) = noDay := by decide
  unfold Yaml.Tag.ofPlain
  rw [String.toList_ofList]
  simp only [row, truth, nothing]
  decide +kernel

theorem load_noDay : Yaml.load noDay = .error (.mishap (.badValue "month must be in 1..12")) := by
  unfold Yaml.load Yaml.loadShared
  rw [document_noDay, ofPlain_noDay]
  rfl

/-- A document that is an empty list is taken for a catalog without chains, and one that is no day of
the calendar is refused as a value out of place and not as a catalog. -/
theorem list_taken_noDay_escapes :
    (Yaml.load ['[', ']'] = .ok (.list []) ∧ parse (String.ofList ['[', ']']) = .ok []) ∧
      parse (String.ofList noDay) = .error (.mishap (.badValue "month must be in 1..12")) := by
  have list : Yaml.load ['[', ']'] = .ok (.list []) :=
    Except.eq_ok_of_toOption (by decide +kernel)
  refine ⟨⟨list, parse_eq_ok.mpr ⟨.list [], ?_, .nothing rfl⟩⟩, parse_eq_mishap.mpr ?_⟩
  · rwa [String.toList_ofList]
  · rw [String.toList_ofList]
    exact load_noDay

end Catalog

end TaintFlow
