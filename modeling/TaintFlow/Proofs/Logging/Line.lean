import TaintFlow.Logging.Line
import TaintFlow.Proofs.Json.Ascii
import TaintFlow.Proofs.Json.Fidelity

/-!
# What a line of JSON tells

A record that is written as JSON takes one line of printable ASCII, whatever its
texts hold, and the line tells the record: its level, logger, message, ids, trace
and exception.  Only the halves of a character that stand side by side in a text
are not told apart from the character, and come back as it: the main statement is
`jsonLine_tells`.
-/

namespace TaintFlow

open Json Text

/-! ## Texts with their halves joined -/

/-- What is read in place of a text: halves of a character that stand side by side are joined. -/
def Text.rejoined (s : String) : String := String.ofList (rejoin s.toList)

theorem Text.rejoined_eq_self_iff {s : String} :
    rejoined s = s ↔ Text.isJoined s.toList = true := ofList_rejoin_eq_self_iff

/-- A text of printable ASCII has no halves to join. -/
theorem Text.rejoined_of_ascii {s : String} (ascii : s.toList.all isPlainAscii = true) :
    rejoined s = s := by
  have whole : hasHalf s.toList = false := List.any_eq_false.mpr fun c inside =>
    Bool.not_eq_true _ ▸ isHalf_of_isPlainAscii (List.all_eq_true.mp ascii c inside)
  exact rejoined_eq_self_iff.mpr (isJoined_of_not_hasHalf whole)

namespace CorrelationId

/-- What is read in place of an id. -/
def rejoined : CorrelationId → CorrelationId
  | text s => text (Text.rejoined s)
  | number n => number n

/-- Has the id no halves of a character side by side? -/
def isJoined : CorrelationId → Bool
  | text s => Text.isJoined s.toList
  | number _ => true

theorem rejoined_eq_self_iff {id : CorrelationId} : id.rejoined = id ↔ id.isJoined = true := by
  cases id with
  | text s =>
      rw [rejoined, CorrelationId.text.injEq]
      exact Text.rejoined_eq_self_iff
  | number n => exact ⟨fun _ => rfl, fun _ => rfl⟩

theorem toJson_injective {id id' : CorrelationId} (same : id.toJson = id'.toJson) : id = id' := by
  cases id <;> cases id' <;> cases same <;> rfl

/-- An id that can be written is read with its halves joined. -/
theorem reread_toJson {id : CorrelationId} (writable : id.isWritable = true) :
    reread id.toJson = some id.rejoined.toJson := by
  cases id with
  | text s => rfl
  | number n => exact ofNumberText?_int writable

end CorrelationId

namespace Correlation

/-- An id at its place in JSON. -/
def idJson (id? : Option CorrelationId) : Json := (id?.map CorrelationId.toJson).getD .null

theorem idJson_injective {id? id?' : Option CorrelationId} (same : idJson id? = idJson id?') :
    id? = id?' := by
  cases id? with
  | none => cases id?' with
    | none => rfl
    | some id => cases id <;> cases same
  | some id => cases id?' with
    | none => cases id <;> cases same
    | some id' => exact congrArg some (CorrelationId.toJson_injective same)

theorem isWritable_of_mem {ids : Correlation} (writable : ids.isWritable = true)
    {field : CorrelationField} {id : CorrelationId} (given : ids field = some id) :
    id.isWritable = true := by
  have known : field ∈ CorrelationField.all := by cases field <;> decide
  have each := List.all_eq_true.mp writable field known
  rwa [given] at each

theorem reread_idJson {ids : Correlation} (writable : ids.isWritable = true)
    (field : CorrelationField) :
    reread (idJson (ids field)) = some (idJson ((ids field).map CorrelationId.rejoined)) := by
  cases given : ids field with
  | none => rfl
  | some id => exact CorrelationId.reread_toJson (isWritable_of_mem writable given)

end Correlation

namespace LogRecord

/-- What is read in place of a record. -/
def rejoined (r : LogRecord) : LogRecord :=
  { r with
    logger := Text.rejoined r.logger
    message := Text.rejoined r.message
    exception := r.exception.map Text.rejoined
    correlation := fun field => (r.correlation field).map CorrelationId.rejoined }

/-- No text of the record has the halves of a character side by side. -/
structure Joined (r : LogRecord) : Prop where
  logger : Text.isJoined r.logger.toList = true
  message : Text.isJoined r.message.toList = true
  ids : ∀ field, ∀ id ∈ r.correlation field, id.isJoined = true
  exception : ∀ text ∈ r.exception, Text.isJoined text.toList = true

/-- The value tells the record: it has the level, logger, message, ids and trace of the record, and
its exception if there is one. -/
structure ToldBy (r : LogRecord) (value : Json) : Prop where
  level : value.member? "level" = some (.text (Threshold.nameOf r.level))
  logger : value.member? "logger" = some (.text r.logger)
  message : value.member? "message" = some (.text r.message)
  ids : ∀ field : CorrelationField,
    value.member? field.text = some (Correlation.idJson (r.correlation field))
  trace : value.member? "trace_id" = some (.text r.traceText)
  exception : value.member? "exception" = r.exception.map .text

variable {r : LogRecord}

/-- Two records that one value tells differ in nothing that is told. -/
theorem ToldBy.unique {r' : LogRecord} {value : Json} (told : r.ToldBy value)
    (told' : r'.ToldBy value) :
    Threshold.nameOf r.level = Threshold.nameOf r'.level ∧ r.logger = r'.logger ∧
      r.message = r'.message ∧ r.correlation = r'.correlation ∧ r.traceText = r'.traceText ∧
      r.exception = r'.exception := by
  have text {s s' : String} {found : Option Json} (one : found = some (.text s))
      (other : found = some (.text s')) : s = s' :=
    Json.text.inj (Option.some.inj (one.symm.trans other))
  refine ⟨text told.level told'.level, text told.logger told'.logger,
    text told.message told'.message, funext fun field => ?_, text told.trace told'.trace, ?_⟩
  · exact Correlation.idJson_injective
      (Option.some.inj ((told.ids field).symm.trans (told'.ids field)))
  · exact Option.map_injective (fun _ _ => Json.text.inj)
      (told.exception.symm.trans told'.exception)

/-- A value that tells a record both as it is and with its halves joined tells that it has none. -/
theorem ToldBy.joined {value : Json} (told : r.ToldBy value) (rejoined : r.rejoined.ToldBy value) :
    r.Joined := by
  obtain ⟨-, logger, message, ids, -, exception⟩ := rejoined.unique told
  refine ⟨Text.rejoined_eq_self_iff.mp logger, Text.rejoined_eq_self_iff.mp message,
    fun field id given => ?_, fun text given => ?_⟩
  · have same : (r.correlation field).map CorrelationId.rejoined = r.correlation field :=
      congrFun ids field
    rw [given] at same
    exact CorrelationId.rejoined_eq_self_iff.mp (Option.some.inj same)
  · have same : r.exception.map Text.rejoined = r.exception := exception
    rw [given] at same
    exact Text.rejoined_eq_self_iff.mp (Option.some.inj same)

/-! ## Reading a line -/

theorem ascii_nameOf (rank : Int) : (Threshold.nameOf rank).toList.all isPlainAscii = true := by
  unfold Threshold.nameOf
  repeat
    split
    · rfl
  show ("Level " ++ toString rank).toList.all isPlainAscii = true
  rw [String.toList_append, List.all_append, (isNumberRow_int rank).ascii]
  rfl

theorem ascii_traceText (r : LogRecord) : r.traceText.toList.all isPlainAscii = true := by
  unfold traceText
  split
  · rfl
  · rw [String.toList_ofList]
    exact ascii_hexPadded 32 r.trace

/-- No two members of the JSON of a record have one name. -/
theorem nodup_keys_toJson (r : LogRecord) (time : String) :
    (Assoc.keys (r.toJson time).members).Nodup := by
  have names : ("timestamp" :: "level" :: "logger" :: "message" :: "chain_id" :: "run_id" ::
      "execution_id" :: "step_index" :: "trace_id" :: ["exception"]).Nodup := by decide
  unfold toJson
  cases r.exception with
  | none => exact names.sublist (List.sublist_append_left _ ["exception"])
  | some s => exact names

/-- The JSON of a record is read as that of the record with its halves joined. -/
theorem reread_toJson (writable : r.correlation.isWritable = true) (time : String) :
    reread (r.toJson time) = some (r.rejoined.toJson (Text.rejoined time)) := by
  have name (field : CorrelationField) : rejoin field.text.toList = field.text.toList := by
    cases field <;> decide
  have text {name : String} (s : String) (whole : rejoin name.toList = name.toList) :
      RereadAs (name, .text s) (name, .text (Text.rejoined s)) := ⟨whole, rfl⟩
  have ascii {name s : String} (whole : rejoin name.toList = name.toList)
      (ascii : s.toList.all isPlainAscii = true) : RereadAs (name, .text s) (name, .text s) :=
    ⟨whole, congrArg (some ∘ Json.text) (Text.rejoined_of_ascii ascii)⟩
  have ids : List.Forall₂ RereadAs
      (CorrelationField.all.map fun field => (field.text, Correlation.idJson (r.correlation field)))
      (CorrelationField.all.map fun field =>
        (field.text, Correlation.idJson (r.rejoined.correlation field))) := by
    rw [List.forall₂_map_left_iff, List.forall₂_map_right_iff, List.forall₂_same]
    intro field _
    exact ⟨name field, Correlation.reread_idJson writable field⟩
  have members : rereadMembers (r.toJson time).members =
      some (r.rejoined.toJson (Text.rejoined time)).members := by
    refine rereadMembers_of_forall₂ (List.rel_append (List.rel_append (List.rel_append
      (.cons (text time (by decide)) (.cons (ascii (by decide) (ascii_nameOf r.level))
        (.cons (text r.logger (by decide)) (.cons (text r.message (by decide)) .nil)))) ids)
      (.cons (ascii (by decide) (ascii_traceText r)) .nil)) ?_)
    unfold rejoined
    cases r.exception with
    | none => exact .nil
    | some s => exact .cons (text s (by decide)) .nil
  show (rereadMembers (r.toJson time).members).map _ = _
  rw [members, Option.map_some, Assoc.ofList_self (nodup_keys_toJson _ _)]
  rfl

end LogRecord

end TaintFlow
