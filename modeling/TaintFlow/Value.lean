import TaintFlow.Payload.Show
import TaintFlow.Mishap
import TaintFlow.Payload.Reading

/-!
# Labelled values

A value is a payload with the labels of everything that went into it and the
number of hops that it has travelled.  Values never change; each operation
makes a new one.
-/

namespace TaintFlow

/-- A payload with its provenance and its distance from the source. -/
structure Value where
  payload : Payload := .null
  labels : LabelSet := ∅
  hops : Nat := 0
  deriving DecidableEq

namespace Value

instance : Inhabited Value := ⟨{}⟩

/-- A constant, which comes from nowhere. -/
def constant (payload : Payload) : Value := { payload }

/-- The value inside another payload. -/
def asPayload (v : Value) : Payload := .value v.payload v.labels v.hops

/-- The value that a payload is, if it is one. -/
def ofPayload? : Payload → Option Value
  | .value payload labels hops => some ⟨payload, labels, hops⟩
  | _ => none

@[simp] theorem ofPayload?_asPayload (v : Value) : ofPayload? v.asPayload = some v := rfl

/-- Does the value carry a label? -/
def isTainted (v : Value) : Bool := !v.labels.isEmpty

/-- The labels of several values together. -/
def unionLabels (values : List Value) : LabelSet :=
  values.foldr (fun v labels => v.labels ∪ labels) ∅

theorem mem_unionLabels {label : Label} {values : List Value} :
    label ∈ unionLabels values ↔ ∃ v ∈ values, label ∈ v.labels := by
  induction values with
  | nil => simp [unionLabels]
  | cons v rest ih =>
    have step : unionLabels (v :: rest) = v.labels ∪ unionLabels rest := rfl
    rw [step, SortedSet.mem_union, ih]
    simp

/-- The distance of the value that has travelled furthest. -/
def furthest (values : List Value) : Nat := values.foldr (fun v hops => max v.hops hops) 0

theorem hops_le_furthest {v : Value} {values : List Value} (h : v ∈ values) :
    v.hops ≤ furthest values := by
  induction values with
  | nil => exact absurd h List.not_mem_nil
  | cons a rest ih =>
    have step : furthest (a :: rest) = max a.hops (furthest rest) := rfl
    rcases List.mem_cons.mp h with rfl | inRest
    · omega
    · have := ih inRest
      omega

/-- The result of combining values into a payload: all their labels, one hop past the
furthest. -/
def combine (values : List Value) (payload : Payload) : Value :=
  ⟨payload, unionLabels values, furthest values + 1⟩

/-- The value one hop further on. -/
def forward (v : Value) : Value := { v with hops := v.hops + 1 }

/-- The value with more labels. -/
def withLabels (v : Value) (labels : LabelSet) : Value := { v with labels := v.labels ∪ labels }

/-- The kinds of input that the value comes from, by name. -/
def categories (v : Value) : SortedSet String :=
  .ofList (v.labels.toList.map fun label => label.category.text)

/-- The first characters of a text, counted from the end if the count is negative. -/
def takeChars (count : Int) (text : List Char) : List Char :=
  if 0 ≤ count then text.take count.toNat else text.take (text.length - (-count).toNat)

/-- A text cut to a number of characters, three of them for an ellipsis. -/
def shorten (limit : Int) (text : List Char) : List Char :=
  if limit < text.length then takeChars (limit - 3) text ++ ['.', '.', '.'] else text

/-- A summary of a value: its payload as text, its labels and its distance. -/
structure Summary where
  payload : String
  labels : List String
  hops : Nat

/-- The summary of a value, its payload cut to a number of characters.  A payload that cannot be
written has none. -/
def describe (v : Value) (limit : Int := 200) : Except Mishap Summary :=
  if v.payload.isWritable then
    .ok ⟨String.ofList (shorten limit v.payload.shown.toList), v.labels.texts, v.hops⟩
  else .error Number.unwritable

end Value

/-!
## Reading labels and values

Labels and values from loosely typed fields, with every issue in them.
-/

open Payload (field fieldOr)

/-- Read a label from its fields. -/
def Label.read (entries : Payload.Entries) : Except Invalid Label :=
  Checked.named "ProvenanceLabel" <|
    (Checked.apply · (fieldOr "trust_level" .untrusted (Payload.readName TrustLevel) entries)) <|
    (Checked.apply · (field "category" (Payload.readName SourceCategory) entries)) <|
    (field "origin_id" Payload.readText entries).map Label.mk

/-- Read a distance, which is not negative. -/
def Value.readHops (payload : Payload) : Checked Nat := do
  let n ← Payload.readWhole payload
  if n < 0 then Checked.issue .greaterThanEqual else return n.toNat

/-- Make a value of a payload, labels and a distance that has not been checked. -/
def Value.make (payload : Payload) (labels : List Label) (hops : Payload) :
    Except Invalid Value :=
  Checked.named "TaintedValue" <|
    ((Value.readHops hops).under (.field "hop_count")).map fun hops =>
      ⟨payload, .ofList labels, hops⟩

/-- Combine values into a payload; there has to be one. -/
def Value.combine? (values : List Value) (payload : Payload) : Except Mishap Value :=
  if values.isEmpty then .error (.badValue "combine() needs at least one input value")
  else .ok (.combine values payload)

end TaintFlow
