import TaintFlow.Payload.Basic

/-!
# Equality of payloads as keys

Mappings compare keys by meaning: a number is the same key however it is
written, so `1`, `1.0` and `true` are one key, while a value that is not a
number is the same key as itself only.  Sequences are compared member by member,
mappings and sets without regard to order.
-/

namespace TaintFlow.Payload

open Number

/-- The whole number that a scalar stands for, if it is a boolean or a whole number. -/
def asInt? : Payload → Option Int
  | .bool b => some (if b then 1 else 0)
  | .int n => some n
  | _ => none

mutual

/-- Do two payloads have the same meaning? -/
def same : Payload → Payload → Bool
  | .null, .null => true
  | .text s, .text t => s == t
  | .bytes b, .bytes c => b == c
  | .list x, .list y => sameAll x y
  | .tuple x, .tuple y => sameAll x y
  | .map x, .map y => x.length == y.length && sameEntries x y
  | .set x, .set y => x.length == y.length && sameMembers x y
  | .moment m, .moment k => m.same k
  | .value p l n, .value q m k => same p q && l == m && n == k
  | .float x, .float y => x.same y || x = y
  | .float x, .bool b => x.sameInt (if b then 1 else 0)
  | .float x, .int n => x.sameInt n
  | .bool b, .float y => y.sameInt (if b then 1 else 0)
  | .int n, .float y => y.sameInt n
  | .bool a, .bool b => a == b
  | .bool a, .int n => (if a then 1 else 0) == n
  | .int n, .bool b => n == (if b then 1 else 0)
  | .int n, .int k => n == k
  | _, _ => false

/-- Do two sequences have the same members? -/
def sameAll : List Payload → List Payload → Bool
  | [], [] => true
  | a :: x, b :: y => same a b && sameAll x y
  | _, _ => false

/-- Does each member of the first set have its like in the second? -/
def sameMembers : List Payload → List Payload → Bool
  | [], _ => true
  | a :: rest, y => y.any (fun b => same a b) && sameMembers rest y

/-- Does each entry of the first mapping have its like in the second? -/
def sameEntries : List (Payload × Payload) → List (Payload × Payload) → Bool
  | [], _ => true
  | (k, v) :: rest, y => y.any (fun p => same k p.1 && same v p.2) && sameEntries rest y

end

mutual

/-- The kind of the first part that keeps a payload from being a key, if there is one. -/
def unhashable? : Payload → Option String
  | .list _ => some "list"
  | .map _ => some "dict"
  | .tuple items => unhashableIn? items
  | .value payload _ _ => unhashable? payload
  | .set _ => some "set"
  | _ => none

/-- The first such part of a sequence. -/
def unhashableIn? : List Payload → Option String
  | [] => none
  | a :: rest =>
    match unhashable? a with
    | some kind => some kind
    | none => unhashableIn? rest

end

namespace Entries

variable {α : Type}

/-- The value at a key. -/
def find? (key : Payload) (m : List (Payload × α)) : Option α :=
  (List.find? (fun entry => same entry.1 key) m).map Prod.snd

/-- Write a value; a key that is there keeps its place and its first spelling. -/
def put (key : Payload) (value : α) : List (Payload × α) → List (Payload × α)
  | [] => [(key, value)]
  | (k, v) :: rest =>
    if same k key then (k, value) :: rest else (k, v) :: put key value rest

/-- Write the entries of a second mapping into a first. -/
def merge (m other : List (Payload × α)) : List (Payload × α) :=
  other.foldl (fun m (k, v) => put k v m) m

/-- The mapping of a list of entries; of two entries with one key the later value stays. -/
def ofList (entries : List (Payload × α)) : List (Payload × α) := merge [] entries

/-- The value at a text key. -/
def text? (key : String) (m : List (Payload × α)) : Option α := find? (.text key) m

end Entries

end TaintFlow.Payload
