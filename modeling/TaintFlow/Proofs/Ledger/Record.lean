import TaintFlow.CommandLine.Basic
import TaintFlow.Proofs.Json.Fidelity
import TaintFlow.Proofs.Relay.Recording
import TaintFlow.Proofs.Run.Trace

/-!
# Records of runs

A run has a record exactly if the parameters of all steps that it came to can be
recorded.  A record is plain JSON: it is kept in memory as it is, and what a file
or a terminal asks for beyond that is that the whole numbers in it are not too
long.  The main statement is `record_of_run`.
-/

namespace TaintFlow

/-! ## Parameters that can be recorded -/

namespace Payload

variable {most : Nat}

theorem nestingOfItems_lt (some_ : 0 < most) {items : List Payload} :
    nestingOfItems items < most ↔ ∀ item ∈ items, nesting item < most := by
  induction items with
  | nil => simp [nestingOfItems, some_]
  | cons item rest ih => rw [nestingOfItems, Nat.max_lt, ih, List.forall_mem_cons]

theorem nestingOfEntries_lt (some_ : 0 < most) {entries : Entries} :
    nestingOfEntries entries < most ↔ ∀ entry ∈ entries, nesting entry.2 < most := by
  induction entries with
  | nil => simp [nestingOfEntries, some_]
  | cons entry rest ih => rw [nestingOfEntries, Nat.max_lt, ih, List.forall_mem_cons]

theorem recordable_text (s : String) : Recordable (.text s) := ⟨.text s, Nat.zero_le _⟩

theorem recordable_list {items : List Payload} :
    Recordable (.list items) ↔ ∀ item ∈ items, Spelt item ∧ nesting item < maxDepth := by
  have spelt : Spelt (.list items) ↔ ∀ item ∈ items, Spelt item :=
    ⟨by rintro ⟨⟩; assumption, .list⟩
  have shallow : nesting (.list items) ≤ maxDepth ↔ ∀ item ∈ items, nesting item < maxDepth :=
    nestingOfItems_lt (by decide)
  rw [Recordable, spelt, shallow]
  exact forall₂_and.symm

theorem recordable_map {entries : Entries} :
    Recordable (.map entries) ↔
      ∀ entry ∈ entries, SpeltKey entry.1 ∧ Spelt entry.2 ∧ nesting entry.2 < maxDepth := by
  have spelt : Spelt (.map entries) ↔
      (∀ entry ∈ entries, SpeltKey entry.1) ∧ ∀ entry ∈ entries, Spelt entry.2 :=
    ⟨fun | .map keys each => ⟨keys, each⟩, fun ⟨keys, each⟩ => .map keys each⟩
  have shallow : nesting (.map entries) ≤ maxDepth ↔ ∀ entry ∈ entries, nesting entry.2 < maxDepth :=
    nestingOfEntries_lt (by decide)
  rw [Recordable, spelt, shallow, and_assoc]
  exact ⟨fun ⟨keys, each, deep⟩ entry inside => ⟨keys entry inside, each entry inside, deep entry inside⟩,
    fun all => ⟨fun entry inside => (all entry inside).1, fun entry inside => (all entry inside).2.1,
      fun entry inside => (all entry inside).2.2⟩⟩

theorem recordable_texts (texts : List String) : Recordable (.list (texts.map .text)) := by
  rw [recordable_list, List.forall_mem_map]
  exact fun s _ => ⟨.text s, Nat.zero_lt_succ _⟩

/-- Named payloads can be recorded exactly if the names have no halves of characters, and the
payloads can be recorded one level down. -/
theorem recordable_named {params : List (String × Payload)} :
    Recordable (.map (params.map fun (key, item) => (.text key, item))) ↔
      ∀ entry ∈ params, Text.hasHalf entry.1.toList = false ∧
        entry.2.Spelt ∧ entry.2.nesting < maxDepth := by
  rw [recordable_map, List.forall_mem_map]
  refine forall₂_congr fun entry _ => and_congr_left fun _ => ?_
  exact ⟨fun | .text whole => whole, .text⟩

end Payload

namespace Step

/-- The parameters of a step. -/
def params : Step → Params
  | .relay _ params | .merge _ _ _ params => params
  | _ => []

/-- The names of the parameters have no halves of characters, all bytes in their values spell texts,
and the values nest no deeper than records do. -/
def Recordable (step : Step) : Prop :=
  ∀ entry ∈ step.params, Text.hasHalf entry.1.toList = false ∧
    entry.2.Spelt ∧ entry.2.nesting < Payload.maxDepth

/-- References to stored values can be recorded. -/
theorem recordable_refs (refs : List StoreRef) :
    Payload.Recordable (.list (refs.map fun ref =>
      .map [(.text "scope", .text ref.scope.text), (.text "key", .text ref.key)])) := by
  rw [Payload.recordable_list, List.forall_mem_map]
  intro ref _
  constructor
  · refine .map ?_ ?_
    · exact List.forall_mem_cons.mpr ⟨.text rfl, List.forall_mem_singleton.mpr (.text rfl)⟩
    · exact List.forall_mem_cons.mpr ⟨.text _, List.forall_mem_singleton.mpr (.text _)⟩
  · show max 0 (max 0 0) + 1 < Payload.maxDepth
    decide

/-- The fields of a step can be recorded exactly if its parameters can. -/
theorem recordable_fields (step : Step) :
    (∀ entry ∈ step.fields, entry.2.Recordable) ↔ step.Recordable := by
  cases step <;>
    simp [fields, params, Recordable, Payload.recordable_text, Payload.recordable_texts,
      Payload.recordable_named, recordable_refs]

theorem exists_toJson {step : Step} : (∃ json, step.toJson = .ok json) ↔ step.Recordable := by
  rw [← recordable_fields, toJson, Except.exists_bind_pure_eq_ok, Except.exists_mapM_eq_ok]
  refine forall₂_congr fun entry _ => ?_
  rw [Except.exists_bind_pure_eq_ok, Payload.recorded_iff]

/-- No two fields of a step have one name. -/
theorem nodup_fields (step : Step) : (Assoc.keys step.fields).Nodup := by
  cases step <;> simp [fields, Assoc.keys]

theorem plain_toJson {step : Step} {json : Json} (made : step.toJson = .ok json) : json.Plain := by
  obtain ⟨members, all, rfl⟩ := Except.bind_pure_eq_ok.mp made
  have names : Assoc.keys members = Assoc.keys step.fields :=
    Except.map_eq_of_mapM_eq_ok (fun _ _ one => by
      obtain ⟨_, _, rfl⟩ := Except.bind_pure_eq_ok.mp one
      rfl) all
  refine .object (names ▸ step.nodup_fields) fun member inside => ?_
  obtain ⟨entry, _, one⟩ := (Except.mem_of_mapM_eq_ok all).mp inside
  obtain ⟨json, taken, rfl⟩ := Except.bind_pure_eq_ok.mp one
  exact Payload.plain_of_wireIn _ _ taken

end Step

/-! ## Records -/

theorem Json.plain_ofText? : ∀ text : Option String, (Json.ofText? text).Plain
  | some s => .text s
  | none => .null

theorem Json.plain_ofTexts (texts : List String) : (Json.ofTexts texts).Plain :=
  .array fun _ inside => by
    obtain ⟨s, _, rfl⟩ := List.mem_map.mp inside
    exact .text s

namespace ErrorRecord

theorem plain_toJson (e : ErrorRecord) : e.toJson.Plain := by
  refine .object (by simp [Assoc.keys]) ?_
  simp only [List.forall_mem_cons]
  refine ⟨.text _, .text _, ?_, Json.plain_ofText? _, Json.plain_ofTexts _, List.forall_mem_nil _⟩
  cases e.step with
  | none => exact .null
  | some n => exact .int n

theorem plain_toJson? : ∀ e? : Option ErrorRecord, (ErrorRecord.toJson? e?).Plain
  | some e => e.plain_toJson
  | none => .null

end ErrorRecord

namespace StepTrace

theorem exists_toJson {shown : StepTrace} :
    (∃ json, shown.toJson = .ok json) ↔ shown.step.Recordable :=
  Except.exists_bind_pure_eq_ok.trans Step.exists_toJson

theorem plain_toJson {shown : StepTrace} {json : Json} (made : shown.toJson = .ok json) :
    json.Plain := by
  obtain ⟨step, taken, rfl⟩ := Except.bind_pure_eq_ok.mp made
  refine .object (by simp [Assoc.keys]) ?_
  simp only [List.forall_mem_cons]
  refine ⟨.int _, Step.plain_toJson taken, Json.plain_ofTexts _, .int _, .text _, .array ?_,
    ErrorRecord.plain_toJson? _, List.forall_mem_nil _⟩
  rw [List.forall_mem_map]
  intro said _
  refine .object (by simp [Assoc.keys]) ?_
  simp only [List.forall_mem_cons]
  exact ⟨.text _, .bool _, Json.plain_ofText? _, List.forall_mem_nil _⟩

end StepTrace

namespace RunResult

variable {r : RunResult} {record : Json}

/-- A run has a record exactly if all steps that left an entry in its trace can be recorded. -/
theorem exists_toRecord :
    (∃ record, r.toRecord = .ok record) ↔ ∀ shown ∈ r.trace, shown.step.Recordable := by
  rw [toRecord, Except.exists_bind_pure_eq_ok]
  simp only [Except.mapError_eq_ok]
  rw [Except.exists_mapM_eq_ok]
  exact forall₂_congr fun _ _ => StepTrace.exists_toJson

theorem plain_toRecord (made : r.toRecord = .ok record) : record.Plain := by
  obtain ⟨entries, all, rfl⟩ := Except.bind_pure_eq_ok.mp made
  have each := Except.mapError_eq_ok.mp all
  refine .object (by simp [Assoc.keys]) ?_
  simp only [List.forall_mem_cons]
  refine ⟨.text _, .text _, .text _, .text _, Json.plain_ofText? _, .text _,
    ErrorRecord.plain_toJson? _, Json.plain_ofTexts _, ?_, .array fun entry inside => ?_,
    List.forall_mem_nil _⟩
  · cases r.categoryMatch with
    | none => exact .null
    | some same => exact .bool same
  · obtain ⟨shown, _, one⟩ := (Except.mem_of_mapM_eq_ok each).mp inside
    exact StepTrace.plain_toJson one

end RunResult

/-! ## Ledgers -/

/-- The ids of a run can be encoded. -/
def RunScopes.Encodable (scopes : RunScopes) : Prop :=
  ∀ id ∈ scopes.execution :: scopes.session.toList, Text.hasHalf id.toList = false

/-- What a ledger keeps of a record. -/
def LedgerEntry.keeping (filed : Bool) (record : Json) : LedgerEntry :=
  if filed then .written record.sortMembers.print else .whole record

/-- The row of a run. -/
def LedgerRow.of (filed : Bool) (r : RunResult) (record : Json) : LedgerRow :=
  ⟨r.runId, r.chain, r.state.text, .keeping filed record⟩

namespace Ledger

variable {l l' : Ledger} {r : RunResult} {record : Json}

/-- What a ledger in a file asks of a run: no number in the record is too long, the ids can be
encoded, and the run is not there yet.  A ledger in memory asks nothing. -/
def Admits (l : Ledger) (r : RunResult) (record : Json) : Prop :=
  l.filed = true → record.isWritable = true ∧ r.scopes.Encodable ∧
    ∀ row ∈ l.rows, row.runId ≠ r.runId

theorem exists_encodeWhole {text : String} :
    (∃ bytes, Text.Utf8.encodeWhole text.toList = .ok bytes) ↔ Text.hasHalf text.toList = false := by
  unfold Text.Utf8.encodeWhole
  cases Text.hasHalf text.toList with
  | true => exact ⟨nofun, nofun⟩
  | false => exact ⟨fun _ => rfl, fun _ => ⟨_, rfl⟩⟩

theorem checkEncodable_eq_ok {texts : List String} :
    l.checkEncodable texts = .ok () ↔
      (l.filed = true → ∀ text ∈ texts, Text.hasHalf text.toList = false) := by
  unfold checkEncodable
  split
  · rename_i filed
    rw [Except.discard_eq_ok, Except.exists_mapM_eq_ok]
    exact (forall₂_congr fun _ _ => exists_encodeWhole).trans ⟨fun all _ => all, fun all => all filed⟩
  · rename_i unfiled
    exact ⟨fun _ filed => absurd filed unfiled, fun _ => rfl⟩

theorem entry_eq_ok {entry : LedgerEntry} :
    l.entry record = .ok entry ↔
      (l.filed = true → record.isWritable = true) ∧ entry = .keeping l.filed record := by
  unfold Ledger.entry LedgerEntry.keeping Json.checkWritable
  cases l.filed with
  | false =>
      exact ⟨fun same => ⟨nofun, (Except.ok.inj same).symm⟩,
        fun ⟨_, same⟩ => congrArg Except.ok same.symm⟩
  | true =>
      cases record.isWritable with
      | false => exact ⟨nofun, fun ⟨writable, _⟩ => nomatch writable rfl⟩
      | true =>
        exact ⟨fun same => ⟨fun _ => rfl, (Except.ok.inj same).symm⟩,
          fun ⟨_, same⟩ => congrArg Except.ok same.symm⟩

/-- A run is recorded exactly if it has a record that the ledger admits. -/
theorem record_eq_ok : l.record r = .ok l' ↔ ∃ record, r.toRecord = .ok record ∧
    l.Admits r record ∧ l' = { l with rows := l.rows ++ [.of l.filed r record] } := by
  unfold Ledger.record
  rw [Except.bind_eq_ok]
  refine exists_congr fun record => and_congr_right fun _ => ?_
  have known : (l.filed && l.rows.any fun row => row.runId == r.runId) = true ↔
      l.filed = true ∧ ∃ row ∈ l.rows, row.runId = r.runId := by
    rw [Bool.and_eq_true, List.any_eq_true]
    simp only [beq_iff_eq]
  rw [Except.bind_eq_ok]
  constructor
  · rintro ⟨_, entered, rest⟩
    obtain ⟨writable, rfl⟩ := entry_eq_ok.mp entered
    obtain ⟨encodable, rest⟩ := Except.check_eq_ok.mp rest
    split at rest
    · cases rest
    · rename_i unknown
      rw [known] at unknown
      exact ⟨fun filed => ⟨writable filed, checkEncodable_eq_ok.mp encodable filed,
        fun row inside same => unknown ⟨filed, row, inside, same⟩⟩, Except.pure_eq_ok.mp rest⟩
  · rintro ⟨admits, rfl⟩
    have unknown : ¬ (l.filed = true ∧ ∃ row ∈ l.rows, row.runId = r.runId) :=
      fun ⟨filed, row, inside, same⟩ => (admits filed).2.2 row inside same
    refine ⟨_, entry_eq_ok.mpr ⟨fun filed => (admits filed).1, rfl⟩,
      Except.check_eq_ok.mpr ⟨checkEncodable_eq_ok.mpr fun filed => (admits filed).2.1, ?_⟩⟩
    rw [if_neg (mt known.mp unknown)]
    rfl

end Ledger

/-! ## Printed records -/

theorem Json.isWritable_array {items : List Json} :
    (Json.array items).isWritable = true ↔ ∀ item ∈ items, item.isWritable = true := by
  unfold Json.isWritable
  rw [Json.leaves, Json.leavesOfItems_eq_flatMap, List.all_flatMap, List.all_eq_true]

theorem Json.exists_checkWritable {value : Json} :
    (∃ written, value.checkWritable = .ok written) ↔ value.isWritable = true := by
  unfold Json.checkWritable
  cases value.isWritable with
  | false => exact ⟨nofun, nofun⟩
  | true => exact ⟨fun _ => rfl, fun _ => ⟨value, rfl⟩⟩

namespace CommandLine

/-- Records are printed exactly if all runs have one and no number in one is too long. -/
theorem exists_report {request : Request} {p : Progress} (asJson : request.asJson = true) :
    (∃ out, report request p = .ok out) ↔
      ∀ r ∈ p.results, ∃ record, r.toRecord = .ok record ∧ record.isWritable = true := by
  unfold report
  rw [if_pos asJson]
  constructor
  · rintro ⟨out, made⟩
    obtain ⟨runs, all, made⟩ := Except.bind_eq_ok.mp made
    obtain ⟨checked, _⟩ := Except.check_eq_ok.mp made
    have writable := Json.isWritable_array.mp
      (Json.exists_checkWritable.mp (Except.discard_eq_ok.mp checked))
    intro r inside
    obtain ⟨record, one⟩ := Except.exists_mapM_eq_ok.mp ⟨runs, all⟩ r inside
    exact ⟨record, one, writable record ((Except.mem_of_mapM_eq_ok all).mpr ⟨r, inside, one⟩)⟩
  · intro each
    obtain ⟨runs, all⟩ : ∃ runs, p.results.mapM RunResult.toRecord = .ok runs :=
      Except.exists_mapM_eq_ok.mpr fun r inside => (each r inside).imp fun _ both => both.1
    have writable : (Json.array runs).isWritable = true := by
      refine Json.isWritable_array.mpr fun record inside => ?_
      obtain ⟨r, there, one⟩ := (Except.mem_of_mapM_eq_ok all).mp inside
      obtain ⟨other, same, writable⟩ := each r there
      obtain rfl := Except.ok.inj (one.symm.trans same)
      exact writable
    exact ⟨_, Except.bind_eq_ok.mpr ⟨runs, all, Except.check_eq_ok.mpr
      ⟨Except.discard_eq_ok.mpr (Json.exists_checkWritable.mpr writable), rfl⟩⟩⟩

end CommandLine

/-! ## The records of runs -/

namespace Run

variable {network defining : Network} {rely : World → World → Prop} {chain : Chain}
  {scopes : RunScopes} {runId : String} {context : Payload} {timeout : Option Timeout}
  {w₀ w : World} {r : Run}

/-- **What the record of a run takes.**  A run of an accepted chain that has come back, in whatever
company, has a record exactly if all steps that it came to can be recorded.  A record without halves
of characters side by side is read back from its text as it is, if no number in it is too long for a
text.  A ledger in memory takes every record, one in a file those that it admits, and records are
printed unless a number in them is too long. -/
theorem record_of_run (valid : chain.validate defining = .ok ())
    (path : Path network rely w₀ (fresh chain scopes runId context timeout) w r)
    (finished : r.result.finished = true) :
    ((∃ record, r.result.toRecord = .ok record) ↔
      ∀ step ∈ chain.steps.take r.result.trace.length, step.Recordable) ∧
    ∀ record, r.result.toRecord = .ok record →
      (record.isWritable = true → record.isJoined = true →
        Json.read record.write = some record) ∧
      (∀ l : Ledger, (∃ after, l.record r.result = .ok after) ↔ l.Admits r.result record) ∧
      ∀ (request : Request) (p : CommandLine.Progress), request.asJson = true →
        p.results = [r.result] →
        ((∃ out, CommandLine.report request p = .ok out) ↔ record.isWritable = true) := by
  have told : Told chain r.result :=
    path.told valid (untold_fresh chain scopes runId context timeout) rfl finished
  constructor
  · rw [RunResult.exists_toRecord, ← told.ordered.map_step, List.forall_mem_map]
  · intro record made
    refine ⟨Json.read_write_self (RunResult.plain_toRecord made), fun l => ?_,
      fun request p asJson only => ?_⟩
    · constructor
      · rintro ⟨after, kept⟩
        obtain ⟨other, same, admits, _⟩ := Ledger.record_eq_ok.mp kept
        obtain rfl := Except.ok.inj (made.symm.trans same)
        exact admits
      · exact fun admits => ⟨_, Ledger.record_eq_ok.mpr ⟨record, made, admits, rfl⟩⟩
    · rw [CommandLine.exists_report asJson, only, List.forall_mem_singleton]
      constructor
      · rintro ⟨other, same, writable⟩
        obtain rfl := Except.ok.inj (made.symm.trans same)
        exact writable
      · exact fun writable => ⟨record, made, writable⟩

/-- An operator that hands its input on, whatever its parameters are. -/
def keep : Operator where
  id := "keep"
  action := .onPayloads fun payloads _ _ => .ofResult (.ok (payloads.headD .null))

/-- A source, an operator and a sink. -/
def keeping : Network := { shortcut with engine := { operators := [("keep", keep)] } }

/-- A chain with a parameter that nothing looks at. -/
def annotated (note : Payload) : Chain where
  id := "annotated"
  expected := .command
  steps := [.source "form", .relay "keep" [("note", note)], .sink "shell"]
  steps_ne := nofun

/-- Does a run return, with a record that passes a check? -/
def End.passes (check : Run → Json → Bool) : End → Bool
  | .returned _ r =>
    match r.result.toRecord with
    | .ok record => check r record
    | .error _ => false
  | _ => false

theorem End.exists_of_passes {check : Run → Json → Bool} {e : End} (passes : e.passes check = true) :
    ∃ w r record, e = .returned w r ∧ r.result.toRecord = .ok record ∧ check r record = true := by
  unfold End.passes at passes
  split at passes
  · rename_i w r
    split at passes
    · rename_i record made
      exact ⟨w, r, record, rfl, made, passes⟩
    · cases passes
  · cases passes

/-- A run with a parameter of JSON has a record, which both kinds of ledger take. -/
theorem record_of_run_annotated : ∃ (w : World) (r : Run) (record : Json),
    run keeping {} (fresh (annotated (.list [.int 1, .text "a"])) ⟨"1", none⟩ "1") =
        .returned w r ∧
      r.result.toRecord = .ok record ∧ Json.read record.write = some record ∧
      ∀ filed, ∃ after, (⟨filed, []⟩ : Ledger).record r.result = .ok after := by
  have passes : (run keeping {} (fresh (annotated (.list [.int 1, .text "a"])) ⟨"1", none⟩ "1")).passes
      (fun r record => r.result.finished && record.isWritable && record.isJoined &&
        decide (r.result.scopes = ⟨"1", none⟩)) = true := by decide +kernel
  obtain ⟨w, r, record, ran, made, all⟩ := End.exists_of_passes passes
  simp only [Bool.and_eq_true, decide_eq_true_eq] at all
  obtain ⟨⟨⟨finished, writable⟩, joined⟩, own⟩ := all
  obtain ⟨log, returned⟩ : ∃ log, Returned keeping (fun _ _ => True) _ log r.result :=
    returned_of_run ran
  obtain ⟨w₀, w', r', path, finished', same⟩ := returned.path rfl
  have valid : (annotated (.list [.int 1, .text "a"])).validate keeping = .ok () := rfl
  obtain ⟨_, kept⟩ := record_of_run valid path finished'
  obtain ⟨readBack, ledgers, _⟩ := kept record (same ▸ made)
  have encodable : r.result.scopes.Encodable := by
    rw [own]
    exact List.forall_mem_singleton.mpr rfl
  refine ⟨w, r, record, ran, made, readBack writable joined, fun filed => ?_⟩
  rw [← same]
  exact (ledgers _).mpr fun _ =>
    ⟨writable, same ▸ encodable, fun _ inside => absurd inside List.not_mem_nil⟩

/-- Bytes that spell no text keep a completed run from having a record, and a number that is too
long keeps its record from a file and from being printed. -/
theorem not_every_run_has_record :
    (∃ w r mishap, run keeping {} (fresh (annotated (.bytes [0xFF])) ⟨"1", none⟩ "1") =
        .returned w r ∧ r.state = .completed ∧ r.result.toRecord = .error mishap) ∧
      ∃ w r record, run keeping {} (fresh (annotated (.int (10 ^ 4300))) ⟨"1", none⟩ "1") =
        .returned w r ∧ r.state = .completed ∧ r.result.toRecord = .ok record ∧
        ∀ after, (⟨true, []⟩ : Ledger).record r.result ≠ .ok after := by
  refine ⟨⟨_, _, _, rfl, rfl, rfl⟩, ?_⟩
  have passes : (run keeping {} (fresh (annotated (.int (10 ^ 4300))) ⟨"1", none⟩ "1")).passes
      (fun r record => decide (r.state = .completed) && !record.isWritable) = true := by
    decide +kernel
  obtain ⟨w, r, record, ran, made, all⟩ := End.exists_of_passes passes
  rw [Bool.and_eq_true, decide_eq_true_eq, Bool.not_eq_true'] at all
  refine ⟨w, r, record, ran, all.1, made, fun after kept => ?_⟩
  obtain ⟨other, same, admits, _⟩ := Ledger.record_eq_ok.mp kept
  obtain rfl := Except.ok.inj (made.symm.trans same)
  cases all.2.symm.trans (admits rfl).1

end Run

end TaintFlow
