import TaintFlow.Label
import TaintFlow.Moment
import TaintFlow.Number.Binary64

/-!
# Payloads

The data that travels along a chain.  A payload may be a scalar, a sequence, a
set, a mapping that keeps the order of its entries, or a whole labelled value
carried inside another.  The harness never looks inside a payload; only the
relay operators do.
-/

namespace TaintFlow

open Number

/-- The data that a value carries. -/
inductive Payload where
  | null
  | bool (b : Bool)
  | int (n : Int)
  | float (x : Binary64)
  | text (s : String)
  | bytes (b : List UInt8)
  | list (items : List Payload)
  | tuple (items : List Payload)
  | map (entries : List (Payload × Payload))
  | set (items : List Payload)
  | moment (m : Moment)
  | value (payload : Payload) (labels : LabelSet) (hops : Nat)

namespace Payload

instance : Inhabited Payload := ⟨.null⟩

/-- The entries of a mapping, in order. -/
abbrev Entries := List (Payload × Payload)

/-- The name of the kind of a payload, as messages give it. -/
def typeName : Payload → String
  | .null => "NoneType"
  | .bool _ => "bool"
  | .int _ => "int"
  | .float _ => "float"
  | .text _ => "str"
  | .bytes _ => "bytes"
  | .list _ => "list"
  | .tuple _ => "tuple"
  | .map _ => "dict"
  | .set _ => "set"
  | .moment m => m.kind
  | .value .. => "TaintedValue"

/-- The name of the kind of a payload with that of its family. -/
def fullTypeName : Payload → String
  | .moment m => s!"datetime.{m.kind}"
  | other => other.typeName

/-- Does the payload count as present?  Nothing, zero and whatever is empty do not. -/
def isPresent : Payload → Bool
  | .null => false
  | .bool b => b
  | .int n => n != 0
  | .float (.finite x) => !x.isZero
  | .float _ => true
  | .text s => s != ""
  | .bytes b => !b.isEmpty
  | .list items => !items.isEmpty
  | .tuple items => !items.isEmpty
  | .map entries => !entries.isEmpty
  | .set items => !items.isEmpty
  | .moment _ => true
  | .value .. => true

mutual

/-- Payloads are compared part by part. -/
def decEq : (a b : Payload) → Decidable (a = b)
  | .null, b => by cases b <;> first | exact .isTrue rfl | exact .isFalse nofun
  | .bool x, .bool y => decidable_of_iff (x = y) (by simp)
  | .int x, .int y => decidable_of_iff (x = y) (by simp)
  | .float x, .float y => decidable_of_iff (x = y) (by simp)
  | .text x, .text y => decidable_of_iff (x = y) (by simp)
  | .bytes x, .bytes y => decidable_of_iff (x = y) (by simp)
  | .moment x, .moment y => decidable_of_iff (x = y) (by simp)
  | .list x, .list y =>
    match decEqList x y with
    | .isTrue h => .isTrue (by rw [h])
    | .isFalse h => .isFalse (by simpa using h)
  | .tuple x, .tuple y =>
    match decEqList x y with
    | .isTrue h => .isTrue (by rw [h])
    | .isFalse h => .isFalse (by simpa using h)
  | .set x, .set y =>
    match decEqList x y with
    | .isTrue h => .isTrue (by rw [h])
    | .isFalse h => .isFalse (by simpa using h)
  | .map x, .map y =>
    match decEqEntries x y with
    | .isTrue h => .isTrue (by rw [h])
    | .isFalse h => .isFalse (by simpa using h)
  | .value p l n, .value q m k =>
    match decEq p q with
    | .isTrue h => decidable_of_iff (l = m ∧ n = k) (by simp [h])
    | .isFalse h => .isFalse (by simp [h])
  | .bool _, .null | .bool _, .int _ | .bool _, .float _ | .bool _, .text _ | .bool _, .bytes _
  | .bool _, .list _ | .bool _, .tuple _ | .bool _, .map _ | .bool _, .set _
  | .bool _, .moment _ | .bool _, .value .. => .isFalse nofun
  | .int _, .null | .int _, .bool _ | .int _, .float _ | .int _, .text _ | .int _, .bytes _
  | .int _, .list _ | .int _, .tuple _ | .int _, .map _ | .int _, .set _ | .int _, .moment _
  | .int _, .value .. => .isFalse nofun
  | .float _, .null | .float _, .bool _ | .float _, .int _ | .float _, .text _
  | .float _, .bytes _ | .float _, .list _ | .float _, .tuple _ | .float _, .map _
  | .float _, .set _ | .float _, .moment _ | .float _, .value .. =>
    .isFalse nofun
  | .text _, .null | .text _, .bool _ | .text _, .int _ | .text _, .float _ | .text _, .bytes _
  | .text _, .list _ | .text _, .tuple _ | .text _, .map _ | .text _, .set _
  | .text _, .moment _ | .text _, .value .. => .isFalse nofun
  | .bytes _, .null | .bytes _, .bool _ | .bytes _, .int _ | .bytes _, .float _
  | .bytes _, .text _ | .bytes _, .list _ | .bytes _, .tuple _ | .bytes _, .map _
  | .bytes _, .set _ | .bytes _, .moment _ | .bytes _, .value .. =>
    .isFalse nofun
  | .list _, .null | .list _, .bool _ | .list _, .int _ | .list _, .float _ | .list _, .text _
  | .list _, .bytes _ | .list _, .tuple _ | .list _, .map _ | .list _, .set _
  | .list _, .moment _ | .list _, .value .. => .isFalse nofun
  | .tuple _, .null | .tuple _, .bool _ | .tuple _, .int _ | .tuple _, .float _
  | .tuple _, .text _ | .tuple _, .bytes _ | .tuple _, .list _ | .tuple _, .map _
  | .tuple _, .set _ | .tuple _, .moment _ | .tuple _, .value .. =>
    .isFalse nofun
  | .map _, .null | .map _, .bool _ | .map _, .int _ | .map _, .float _ | .map _, .text _
  | .map _, .bytes _ | .map _, .list _ | .map _, .tuple _ | .map _, .set _ | .map _, .moment _
  | .map _, .value .. => .isFalse nofun
  | .set _, .null | .set _, .bool _ | .set _, .int _ | .set _, .float _ | .set _, .text _
  | .set _, .bytes _ | .set _, .list _ | .set _, .tuple _ | .set _, .map _ | .set _, .moment _
  | .set _, .value .. => .isFalse nofun
  | .moment _, .null | .moment _, .bool _ | .moment _, .int _ | .moment _, .float _
  | .moment _, .text _ | .moment _, .bytes _ | .moment _, .list _ | .moment _, .tuple _
  | .moment _, .map _ | .moment _, .set _ | .moment _, .value .. =>
    .isFalse nofun
  | .value .., .null | .value .., .bool _ | .value .., .int _ | .value .., .float _
  | .value .., .text _ | .value .., .bytes _ | .value .., .list _ | .value .., .tuple _
  | .value .., .map _ | .value .., .set _ | .value .., .moment _ =>
    .isFalse nofun

/-- Sequences of payloads are compared member by member. -/
def decEqList : (a b : List Payload) → Decidable (a = b)
  | [], [] => .isTrue rfl
  | [], _ :: _ => .isFalse nofun
  | _ :: _, [] => .isFalse nofun
  | a :: x, b :: y =>
    match decEq a b, decEqList x y with
    | .isTrue h, .isTrue k => .isTrue (by rw [h, k])
    | .isFalse h, _ => .isFalse (by simp [h])
    | _, .isFalse k => .isFalse (by simp [k])

/-- Entries are compared in order, key and value. -/
def decEqEntries : (a b : List (Payload × Payload)) → Decidable (a = b)
  | [], [] => .isTrue rfl
  | [], _ :: _ => .isFalse nofun
  | _ :: _, [] => .isFalse nofun
  | (a, c) :: x, (b, d) :: y =>
    match decEq a b, decEq c d, decEqEntries x y with
    | .isTrue h, .isTrue i, .isTrue k => .isTrue (by rw [h, i, k])
    | .isFalse h, _, _ => .isFalse (by simp [h])
    | _, .isFalse i, _ => .isFalse (by simp [i])
    | _, _, .isFalse k => .isFalse (by simp [k])

end

instance : DecidableEq Payload := decEq

end Payload

end TaintFlow
