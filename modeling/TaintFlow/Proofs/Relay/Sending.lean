import TaintFlow.Proofs.Relay.Exact
import TaintFlow.Proofs.Relay.Library

/-!
# Values that a wire brings over

A payload that is JSON to begin with is written, read and taken in as it is, up to a
depth and a length of numbers, and unless a text cannot be encoded.  A value with such
a payload comes over a wire unchanged: `overWire_of_sendable`.
-/

namespace TaintFlow

open Number Text

namespace Payload

/-- A payload that a wire brings over as it is if it may nest so deep: nothing, truth values, whole
numbers and texts, and lists and mappings of such.  Texts have to be encodable, and the text of a
number must not be too long. -/
inductive Travels : Nat → Payload → Prop where
  | null {room : Nat} : Travels room .null
  | bool {room : Nat} (b : Bool) : Travels room (.bool b)
  | int {room : Nat} {n : Int} (short : (toString n).length ≤ maxDigits) : Travels room (.int n)
  | text {room : Nat} {s : String} (whole : hasHalf s.toList = false) : Travels room (.text s)
  | list {room : Nat} {items : List Payload} (each : ∀ item ∈ items, Travels room item) :
      Travels (room + 1) (.list items)
  | map {room : Nat} {entries : Entries}
      (keys : ∀ entry ∈ entries, ∃ s, entry.1 = .text s ∧ hasHalf s.toList = false)
      (once : (Assoc.keys entries).Nodup) (each : ∀ entry ∈ entries, Travels room entry.2) :
      Travels (room + 1) (.map entries)

/-- A payload as it stands on a wire, and as it is taken from it. -/
structure Crosses (room : Nat) (p : Payload) (json : Json) : Prop where
  written : ∀ {more}, room ≤ more → wireIn true more p = .ok json
  reread : json.reread = some json
  same : ofJson json = p
  receivable : ∀ {more}, room ≤ more → json.isReceivable more = true

theorem natAbs_lt_of_length {n : Int} {most : Nat} (some_ : 0 < most)
    (short : (toString n).length ≤ most) : n.natAbs < Nat.pow 10 most := by
  have digits : (Nat.toDigits 10 n.natAbs).length ≤ (toString n).toList.length := by
    rw [Json.toList_toString_int]
    split
    · exact Nat.le_succ _
    · exact Nat.le_refl _
  exact (Nat.length_toDigits_le_iff (by decide) some_).mp (digits.trans short)

theorem isWritable_of_length {n : Int} (short : (toString n).length ≤ maxDigits) :
    Number.isWritable n = true :=
  decide_eq_true (natAbs_lt_of_length (by decide) short)

variable {room : Nat}

theorem crosses_items {items : List Payload} (each : ∀ item ∈ items, ∃ json, Crosses room item json) :
    ∃ jsons, (∀ {more}, room ≤ more → wireItems true more items = .ok jsons) ∧
      Json.rereadItems jsons = some jsons ∧ ofJson.ofItems jsons = items ∧
        ∀ {more}, room ≤ more → Json.isReceivable.itemsAreReceivable more jsons = true := by
  induction items with
  | nil => exact ⟨[], fun _ => rfl, rfl, rfl, fun _ => rfl⟩
  | cons item rest ih =>
      obtain ⟨⟨json, crosses⟩, others⟩ := List.forall_mem_cons.mp each
      obtain ⟨jsons, written, reread, same, receivable⟩ := ih others
      refine ⟨json :: jsons, fun enough => ?_, ?_, ?_, fun enough => ?_⟩
      · rw [wireItems, crosses.written enough, written enough]
        rfl
      · rw [Json.rereadItems, crosses.reread, reread]
        rfl
      · rw [ofJson.ofItems, crosses.same, same]
      · rw [Json.isReceivable.itemsAreReceivable, crosses.receivable enough, receivable enough]
        rfl

theorem crosses_entries {entries : Entries}
    (keys : ∀ entry ∈ entries, ∃ s, entry.1 = .text s ∧ hasHalf s.toList = false)
    (each : ∀ entry ∈ entries, ∃ json, Crosses room entry.2 json) :
    ∃ members, (∀ {more}, room ≤ more → wireEntries true more entries = .ok members) ∧
      Json.rereadMembers members = some members ∧ ofJson.ofMembers members = entries ∧
        ∀ {more}, room ≤ more → Json.isReceivable.membersAreReceivable more members = true := by
  induction entries with
  | nil => exact ⟨[], fun _ => rfl, rfl, rfl, fun _ => rfl⟩
  | cons entry rest ih =>
      obtain ⟨key, item⟩ := entry
      obtain ⟨⟨s, rfl, whole⟩, otherKeys⟩ := List.forall_mem_cons.mp keys
      obtain ⟨⟨json, crosses⟩, others⟩ := List.forall_mem_cons.mp each
      obtain ⟨members, written, reread, same, receivable⟩ := ih otherKeys others
      have key : wireKey (.text s) = .ok s := by
        rw [wireKey, encodable, whole]
        rfl
      refine ⟨(s, json) :: members, fun enough => ?_, ?_, ?_, fun enough => ?_⟩
      · rw [wireEntries, key, crosses.written enough, written enough]
        rfl
      · rw [Json.rereadMembers, rejoin_of_not_hasHalf whole, crosses.reread, reread,
          String.ofList_toList]
        rfl
      · rw [ofJson.ofMembers, crosses.same, same]
      · rw [Json.isReceivable.membersAreReceivable, crosses.receivable enough, receivable enough]
        rfl

theorem Travels.exists_crosses {p : Payload} (travels : p.Travels room) :
    ∃ json, Crosses room p json := by
  induction travels with
  | null => exact ⟨.null, fun _ => rfl, rfl, rfl, fun _ => rfl⟩
  | bool b => exact ⟨.bool b, fun _ => rfl, rfl, rfl, fun _ => rfl⟩
  | @int room n short =>
      exact ⟨.int n, fun _ => rfl, Json.ofNumberText?_int (isWritable_of_length short), rfl,
        fun _ => decide_eq_true short⟩
  | @text room s whole =>
      refine ⟨.text s, fun _ => ?_, Json.reread_text whole, rfl, fun _ => rfl⟩
      rw [wireIn, encodable, whole]
      rfl
  | @list room items each ih =>
      obtain ⟨jsons, written, reread, same, receivable⟩ := crosses_items ih
      refine ⟨.array jsons, fun enough => ?_, ?_, ?_, fun enough => ?_⟩
      · rw [wireIn, if_neg (by omega), written (by omega)]
        rfl
      · rw [Json.reread, reread]
        rfl
      · rw [ofJson, same]
      · rw [Json.isReceivable, receivable (by omega), Bool.and_true, decide_eq_true_eq]
        omega
  | @map room entries keys once each ih =>
      obtain ⟨members, written, reread, same, receivable⟩ := crosses_entries keys ih
      have distinct : (Assoc.keys members).Nodup := by
        rw [← same, keys_ofMembers] at once
        exact List.Nodup.of_map _ once
      refine ⟨.object members, fun enough => ?_, ?_, ?_, fun enough => ?_⟩
      · rw [wireIn, if_neg (by omega), written (by omega)]
        exact congrArg (fun members => Except.ok (Json.object members)) (Assoc.ofList_self distinct)
      · rw [Json.reread, reread, Option.map_some, Assoc.ofList_self distinct]
      · rw [ofJson, same]
      · rw [Json.isReceivable, receivable (by omega), Bool.and_true, decide_eq_true_eq]
        omega

end Payload

namespace Value

/-- The deepest nesting of a payload that comes over a wire with its labels. -/
def sentDepth : Nat := maxReadDepth - 1

/-- A value that a wire brings over. -/
structure Sendable (v : Value) : Prop where
  payload : v.payload.Travels sentDepth
  origins : ∀ label ∈ v.labels, hasHalf label.origin.toList = false
  hops : (toString (v.hops : Int)).length ≤ maxDigits

theorem isReceivable_wireLabels (labels : List Label) :
    Json.isReceivable.itemsAreReceivable 198 (labels.map Payload.wireLabel) = true := by
  induction labels with
  | nil => rfl
  | cons label rest ih =>
      rw [List.map_cons, Json.isReceivable.itemsAreReceivable, ih]
      rfl

/-- A value that can be sent is received as it is. -/
theorem Sendable.receive {v : Value} (sendable : v.Sendable) :
    ∃ written, v.toWire = .ok written ∧ Value.receive written = .ok v := by
  obtain ⟨json, crosses⟩ := sendable.payload.exists_crosses
  have payload : Payload.wire v.payload = .ok json := crosses.written (by decide)
  refine ⟨sent json v.labels v.hops, toWire_eq_ok.mpr ⟨json, payload, sendable.origins, rfl⟩, ?_⟩
  have hops : Json.reread (.int v.hops) = some (.int v.hops) :=
    Json.ofNumberText?_int (Payload.isWritable_of_length sendable.hops)
  have labels : (Json.array (v.labels.toList.map Payload.wireLabel)).isReceivable 199 = true :=
    isReceivable_wireLabels v.labels.toList
  have receivable : (sent json v.labels v.hops).isReceivable maxReadDepth = true := by
    have payload : json.isReceivable 199 = true := crosses.receivable (Nat.le_refl _)
    have hops : (Json.int v.hops).isReceivable 199 = true := decide_eq_true sendable.hops
    show (true && (json.isReceivable 199 && ((Json.array _).isReceivable 199 &&
      ((Json.int v.hops).isReceivable 199 && true)))) = true
    rw [payload, labels, hops]
    rfl
  unfold Value.receive
  rw [if_pos receivable, ofWire?_sent sendable.origins, crosses.reread, Option.bind_some, hops]
  dsimp only [Option.bind_some, Json.int?, Option.map_some]
  rw [crosses.same, Int.toNat_natCast]

end Value

namespace Boundary

/-- A worker hands back a value that can be sent. -/
theorem overWire_of_sendable {v : Value} (sendable : v.Sendable) :
    overWire v = .ok { result := .ok v.asPayload, wait := [.thread, .turn] } := by
  obtain ⟨written, wrote, received⟩ := sendable.receive
  unfold overWire
  rw [wrote]
  show Except.ok _ = _
  rw [received]
  rfl

theorem workerThread_action :
    workerThread.action = handOver "worker_thread" [] fun value _ => overWire value := rfl

theorem shape_of_mem : ∀ operator ∈ operators, operator.arity = some 1 ∧
    operator.preserving = true ∧ operator.suspends = true ∧ operator.lifted = false := by
  decide

/-- An operator that crosses a boundary answers with the value that it was given; only a wire has to
be able to bring it over. -/
theorem call_of_mem {operator : Operator} (inside : operator ∈ operators) {v : Value}
    (sendable : operator.id = workerThread.id → v.Sendable) (store : Store) :
    ∃ wait, operator.call [v] [] store = { result := .ok v.asPayload, wait } ∧
      wait.isEndless = false := by
  have cases := inside
  unfold operators at cases
  simp only [List.mem_cons, List.not_mem_nil, or_false] at cases
  rcases cases with rfl | rfl | rfl | rfl | rfl
  · exact ⟨_, rfl, rfl⟩
  · exact ⟨_, rfl, rfl⟩
  · exact ⟨_, rfl, rfl⟩
  · exact ⟨_, rfl, rfl⟩
  · have acted : overWire ([v].headD default) =
        .ok { result := .ok v.asPayload, wait := [.thread, .turn] } :=
      overWire_of_sendable (sendable rfl)
    have called : workerThread.call [v] [] store =
        { result := .ok v.asPayload, wait := [.thread, .turn] } :=
      handOver_call_of_ok workerThread_action rfl acted store
    exact ⟨[.thread, .turn], called, rfl⟩

end Boundary

/-! ## Through the engine -/

namespace Engine

variable {engine : Engine} {v : Value} {store : Store}

theorem forward_eq (v : Value) :
    (⟨v.payload, Value.unionLabels [v], Value.furthest [v] + 1⟩ : Value) = v.forward := by
  have labels : Value.unionLabels [v] = v.labels := SortedSet.union_empty _
  have hops : Value.furthest [v] = v.hops := Nat.max_zero _
  rw [labels, hops]
  rfl

/-- An operator that hands on its value makes the value one hop on. -/
theorem makes_passthrough (v : Value) (store : Store) :
    engine.Makes [v] [] store (Builtin.identity "passthrough" "identity") v.forward where
  accepts := rfl
  nonempty := List.cons_ne_nil _ _
  answer := by
    refine ⟨none, [], v.payload, .combine [v] v.payload, ?_, rfl, rfl, rfl, rfl, ?_⟩
    · unfold bound
      split <;> rfl
    · rw [← forward_eq]
      rfl
  kept _ := by
    rw [← forward_eq]
    exact SortedSet.subset_def.mpr fun _ inside => inside

/-- So does an operator that crosses a boundary in time. -/
theorem makes_boundary {operator : Operator} (inside : operator ∈ Boundary.operators)
    (prompt : isExpired engine.boundary (operator.call [v] [] store) = false)
    (sendable : operator.id = Boundary.workerThread.id → v.Sendable) :
    engine.Makes [v] [] store operator v.forward := by
  obtain ⟨arity, preserving, suspends, notLifted⟩ := Boundary.shape_of_mem operator inside
  obtain ⟨wait, answered, ends⟩ := Boundary.call_of_mem inside sendable store
  constructor
  · unfold Operator.accepts
    rw [arity]
    rfl
  · exact List.cons_ne_nil _ _
  · refine ⟨engine.boundary, [], v.asPayload, v, ?_, prompt, ?_, ?_, ?_, ?_⟩
    · unfold bound
      rw [suspends]
      cases engine.boundary with
      | none => rfl
      | some usual => rfl
    · rw [answered]
      exact ends
    · rw [answered]
    · unfold label
      rw [notLifted]
      rfl
    · have hops : Value.furthest [v] = v.hops := Nat.max_zero _
      rw [hops]
      rfl
  · intro _
    rw [← forward_eq]
    exact SortedSet.subset_def.mpr fun _ inside => inside

end Engine

end TaintFlow
