import TaintFlow.Proofs.Data.Except
import TaintFlow.Proofs.Json.Reread
import TaintFlow.Relay.Boundary

/-!
# Values that cross a wire

The labels of a value come over a wire as they are, and what comes of its payload
depends neither on them nor on how far the value has travelled.
-/

namespace TaintFlow

open Json Text

/-! ## Labels -/

theorem Json.reread_text {s : String} (whole : hasHalf s.toList = false) :
    (Json.text s).reread = some (.text s) := by
  rw [reread, rejoin_of_not_hasHalf whole, String.ofList_toList]

theorem Json.reread_wireLabel {label : Label} (whole : hasHalf label.origin.toList = false) :
    (Payload.wireLabel label).reread = some (Payload.wireLabel label) := by
  obtain ⟨origin, category, trust⟩ := label
  have origins := reread_text whole
  have named : (Json.text category.text).reread = some (.text category.text) := by
    cases category <;> rfl
  have trusted : (Json.text trust.text).reread = some (.text trust.text) := by
    cases trust <;> rfl
  unfold Payload.wireLabel
  rw [reread]
  simp only [rereadMembers, origins, named, trusted, Option.pure_def, Option.bind_eq_bind,
    Option.bind_some, Option.map_some]
  rfl

theorem Json.rereadItems_wireLabels {labels : List Label}
    (whole : ∀ label ∈ labels, hasHalf label.origin.toList = false) :
    rereadItems (labels.map Payload.wireLabel) = some (labels.map Payload.wireLabel) := by
  induction labels with
  | nil => rfl
  | cons label rest ih =>
      obtain ⟨first, others⟩ := List.forall_mem_cons.mp whole
      rw [List.map_cons, rereadItems, reread_wireLabel first, ih others]
      rfl

namespace Value

theorem labelOfWire?_wireLabel (label : Label) :
    labelOfWire? (Payload.wireLabel label) = some label := by
  obtain ⟨origin, category, trust⟩ := label
  have named : Enumeration.ofName? category.text = some category := Enumeration.ofName?_name category
  have trusted : Enumeration.ofName? trust.text = some trust := Enumeration.ofName?_name trust
  unfold labelOfWire? Payload.wireLabel
  simp [member?, Assoc.find?, text?, named, trusted]

theorem mapM_labelOfWire? (labels : List Label) :
    (labels.map Payload.wireLabel).mapM labelOfWire? = some labels := by
  induction labels with
  | nil => rfl
  | cons label rest ih =>
      rw [List.map_cons, List.mapM_cons, labelOfWire?_wireLabel, ih]
      rfl

theorem ofList_toList (labels : LabelSet) : SortedSet.ofList labels.toList = labels :=
  SortedSet.ext fun label => by rw [SortedSet.mem_ofList, SortedSet.mem_toList]

/-! ## Values -/

/-- A payload with labels and a distance, as they are sent. -/
def sent (payload : Json) (labels : LabelSet) (hops : Nat) : Json :=
  .object [("payload", payload), ("labels", .array (labels.toList.map Payload.wireLabel)),
    ("hop_count", .int hops)]

/-- Labels can be encoded if no origin has halves. -/
theorem mapM_encodable {labels : List Label} :
    (∃ names, labels.mapM (fun label => Payload.encodable label.origin) = .ok names) ↔
      ∀ label ∈ labels, hasHalf label.origin.toList = false := by
  induction labels with
  | nil => exact ⟨fun _ _ inside => absurd inside List.not_mem_nil, fun _ => ⟨[], rfl⟩⟩
  | cons label rest ih =>
      rw [List.forall_mem_cons, ← ih, List.mapM_cons]
      unfold Payload.encodable
      cases half : hasHalf label.origin.toList with
      | true =>
          constructor
          · rintro ⟨_, encodable⟩
            cases encodable
          · rintro ⟨whole, _⟩
            cases whole
      | false =>
          constructor
          · rintro ⟨_, encodable⟩
            obtain ⟨_, _, more⟩ := Except.bind_eq_ok.mp encodable
            obtain ⟨names, others, _⟩ := Except.bind_eq_ok.mp more
            exact ⟨rfl, names, others⟩
          · rintro ⟨_, names, others⟩
            refine ⟨label.origin :: names, ?_⟩
            refine Except.bind_eq_ok.mpr ⟨label.origin, rfl, ?_⟩
            exact Except.bind_eq_ok.mpr ⟨names, others, rfl⟩

/-- A value is sent if its payload can be written and its labels can be encoded. -/
theorem toWire_eq_ok {v : Value} {written : Json} :
    v.toWire = .ok written ↔ ∃ payload, Payload.wire v.payload = .ok payload ∧
      (∀ label ∈ v.labels, hasHalf label.origin.toList = false) ∧
        written = sent payload v.labels v.hops := by
  have encoded : (∃ names, v.labels.toList.mapM (fun label => Payload.encodable label.origin) =
      .ok names) ↔ ∀ label ∈ v.labels, hasHalf label.origin.toList = false := mapM_encodable
  unfold toWire
  rw [Except.bind_eq_ok]
  refine exists_congr fun payload => and_congr_right fun _ => ?_
  rw [← encoded]
  unfold Payload.wireValue
  rw [if_pos rfl]
  cases v.labels.toList.mapM (fun label => Payload.encodable label.origin) with
  | error fault =>
      constructor
      · intro wrote
        cases wrote
      · rintro ⟨⟨_, encodable⟩, _⟩
        cases encodable
  | ok names =>
      constructor
      · intro wrote
        exact ⟨⟨names, rfl⟩, (Except.ok.inj wrote).symm⟩
      · rintro ⟨_, rfl⟩
        rfl

/-- What arrives of a value that was sent. -/
theorem ofWire?_sent {payload : Json} {labels : LabelSet} {hops : Nat}
    (whole : ∀ label ∈ labels, hasHalf label.origin.toList = false) :
    ofWire? (sent payload labels hops).write =
      (payload.reread).bind fun payload =>
        (reread (.int hops)).bind fun hops =>
          hops.int?.map fun hops => ⟨Payload.ofJson payload, labels, hops.toNat⟩ := by
  unfold ofWire?
  rw [read_write]
  have same : (sent payload labels hops).reread =
      payload.reread.bind fun payload => (reread (.int hops)).bind fun hops =>
        some (.object [("payload", payload),
          ("labels", .array (labels.toList.map Payload.wireLabel)), ("hop_count", hops)]) := by
    have labels' : reread (.array (labels.toList.map Payload.wireLabel)) =
        some (.array (labels.toList.map Payload.wireLabel)) := by
      rw [reread, rereadItems_wireLabels whole]
      rfl
    show (rereadMembers [_, _, _]).map _ = _
    simp only [rereadMembers, labels', Option.pure_def, Option.bind_eq_bind]
    cases payload.reread with
    | none => rfl
    | some payload =>
        cases reread (.int hops) with
        | none => rfl
        | some hops => rfl
  rw [same]
  cases payload.reread with
  | none => rfl
  | some payload =>
      cases reread (.int hops) with
      | none => rfl
      | some hops =>
          simp only [member?, Assoc.find?, items, String.reduceEq, if_true, if_false,
            Option.pure_def, Option.bind_eq_bind, Option.bind_some]
          rw [mapM_labelOfWire?, Option.bind_some, ofList_toList]
          cases hops.int? with
          | none => rfl
          | some hops => rfl

/-- A value that arrives has the labels that were sent, and its payload is that of the same payload
sent bare. -/
theorem receive_sent {payload : Json} {labels : LabelSet} {hops : Nat} {v : Value}
    (whole : ∀ label ∈ labels, hasHalf label.origin.toList = false)
    (arrived : receive (sent payload labels hops) = .ok v) :
    v.labels = labels ∧
      ∃ bare, receive (sent payload ∅ 0) = .ok bare ∧ bare.payload = v.payload := by
  unfold receive at arrived ⊢
  split at arrived
  · rename_i receivable
    rw [ofWire?_sent whole] at arrived
    have bare : (sent payload ∅ 0).isReceivable maxReadDepth = true := by
      have parts : (true && (payload.isReceivable 199 && _)) = true := receivable
      rw [Bool.true_and, Bool.and_eq_true] at parts
      show (true && (payload.isReceivable 199 && _)) = true
      rw [parts.1]
      decide
    rw [if_pos bare, ofWire?_sent fun _ inside => absurd inside (SortedSet.not_mem_empty _)]
    cases found : payload.reread with
    | none =>
        rw [found] at arrived
        cases arrived
    | some read =>
        have far : ∃ far, v = ⟨Payload.ofJson read, labels, far⟩ := by
          rw [found, Option.bind_some] at arrived
          cases number : reread (.int hops) with
          | none =>
              rw [number] at arrived
              cases arrived
          | some number' =>
              rw [number, Option.bind_some] at arrived
              cases whole' : number'.int? with
              | none =>
                  rw [whole'] at arrived
                  cases arrived
              | some n =>
                  rw [whole'] at arrived
                  exact ⟨n.toNat, (Except.ok.inj arrived).symm⟩
        obtain ⟨far, rfl⟩ := far
        exact ⟨rfl, ⟨Payload.ofJson read, ∅, 0⟩, rfl, rfl⟩
  · cases arrived

end Value

namespace Boundary

/-- What a worker hands back of a value. -/
theorem overWire_eq_ok {v : Value} {answer : Answer} {payload : Payload}
    (handed : overWire v = .ok answer) (result : answer.result = .ok payload) :
    answer.edits = [] ∧ answer.wait = [.thread, .turn] ∧
      ∃ arrived : Value, payload = arrived.asPayload ∧ arrived.labels = v.labels ∧
        ∃ bare : Value, overWire (.constant v.payload) =
            .ok { result := .ok bare.asPayload, wait := [.thread, .turn] } ∧
          bare.payload = arrived.payload := by
  unfold overWire at handed ⊢
  obtain ⟨written, wrote, handed⟩ := Except.bind_eq_ok.mp handed
  obtain ⟨json, payloads, whole, rfl⟩ := Value.toWire_eq_ok.mp (Except.mapError_eq_ok.mp wrote)
  obtain rfl := Except.ok.inj handed
  refine ⟨rfl, rfl, ?_⟩
  cases received : Value.receive (Value.sent json v.labels v.hops) with
  | error issues =>
      rw [received] at result
      cases result
  | ok arrived =>
      rw [received] at result
      obtain rfl := Except.ok.inj result
      obtain ⟨labels, bare, bareArrived, same⟩ := Value.receive_sent whole received
      refine ⟨arrived, rfl, labels, bare, ?_, same⟩
      have bareWritten : (Value.constant v.payload).toWire = .ok (Value.sent json ∅ 0) :=
        Value.toWire_eq_ok.mpr ⟨json, payloads,
          fun _ inside => absurd inside (SortedSet.not_mem_empty _), rfl⟩
      rw [bareWritten]
      show Except.ok _ = _
      rw [bareArrived]
      rfl

end Boundary

end TaintFlow
