import TaintFlow.Registry.Source

/-!
# Sinks

The registry of unsafe consumers.  A sink's capability gets the payload only.
Whatever comes of the call, the result echoes the labels that the harness
handed over, since sinks are not expected to know about labels.
-/

namespace TaintFlow

/-- The description of an unsafe consumer. -/
structure Sink where
  id : String
  categories : SortedSet SinkCategory
  capability : Capability
  timeout : Option Number.Binary64 := none
  description : String := ""

/-- What came of handing a value to a sink. -/
structure SinkResult where
  sink : String
  accepted : Bool
  raw : Payload := .null
  labels : LabelSet := ∅
  hops : Nat := 0
  error : Option String := none
  deriving DecidableEq

/-- A description before it has been checked. -/
structure SinkDraft where
  id : Payload
  categories : Payload
  provider : Provider
  timeout : Payload := .null
  description : Payload := .text ""

/-- Read a set of categories that is not empty. -/
def readCategories : Payload → Checked (SortedSet SinkCategory)
  | .list items | .tuple items => do
    let read ← Checked.each (Payload.readName SinkCategory) items
    if read.isEmpty then Checked.issue .tooShort else return .ofList read
  | _ => Checked.issue .setType

/-- Check a description. -/
def SinkDraft.check (draft : SinkDraft) : Except Invalid Sink :=
  let at_ {α : Type} (name : String) (reading : Checked α) : Checked α :=
    reading.under (.field name)
  let build (id : String) (categories : SortedSet SinkCategory) (capability : Capability)
      (timeout : Option Number.Binary64) (description : String) : Sink :=
    { id, categories, capability, timeout, description }
  Checked.named "SinkDescriptor" <|
    (Checked.apply · (at_ "description" (Payload.readText draft.description))) <|
    (Checked.apply ·
      (at_ "timeout_s" (Payload.readOptional Payload.readSeconds draft.timeout))) <|
    (Checked.apply · (at_ "consume" (checkProvider draft.provider))) <|
    (Checked.apply · (at_ "categories" (readCategories draft.categories))) <|
    (at_ "id" (Payload.readNonempty draft.id)).map build

/-- Sinks by id. -/
abbrev Sinks := Assoc String Sink

namespace Sinks

/-- Add a sink whose id is free. -/
def add (sinks : Sinks) (s : Sink) : Except Fault Sinks :=
  if sinks.has s.id then .error ⟨.duplicate .sink s.id, none⟩
  else .ok (sinks.put s.id s)

/-- The sink of an id. -/
def get (sinks : Sinks) (id : String) : Except Fault Sink :=
  match sinks.find? id with
  | some s => .ok s
  | none => .error ⟨.unknown .sink id, none⟩

/-- The sinks in the order of their ids, all of them or those of a category. -/
def list (sinks : Sinks) (category : Option SinkCategory := none) : List Sink :=
  let sorted := (sinks.map Prod.snd).mergeSort fun a b => !decide (b.id < a.id)
  match category with
  | none => sorted
  | some wanted => sorted.filter fun s => wanted ∈ s.categories

end Sinks

end TaintFlow
