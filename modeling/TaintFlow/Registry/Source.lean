import TaintFlow.Registry.Capability
import TaintFlow.Fault
import TaintFlow.Payload.Reading

/-!
# Sources

The registry of data origins.  It owns descriptions only: calling a source asks
its capability for data and stamps what comes back with the source's label, at
distance zero.
-/

namespace TaintFlow

/-- The description of a data origin. -/
structure Source where
  id : String
  category : SourceCategory
  capability : Capability
  origin : Option String := none
  trust : TrustLevel := .untrusted
  timeout : Option Number.Binary64 := none
  description : String := ""

namespace Source

/-- The label of the data that the source gives. -/
def label (s : Source) : Label :=
  let origin := match s.origin with
    | some origin => if origin = "" then s.id else origin
    | none => s.id
  ⟨origin, s.category, s.trust⟩

end Source

/-- A description before it has been checked. -/
structure SourceDraft where
  id : Payload
  category : Payload
  provider : Provider
  origin : Payload := .null
  trust : Payload := .text "untrusted"
  timeout : Payload := .null
  description : Payload := .text ""

/-- The component behind a field that holds a capability. -/
def checkProvider (provider : Provider) : Checked Capability :=
  match provider.component? with
  | some capability => .ok capability
  | none => Checked.issue .refused

/-- Check a description. -/
def SourceDraft.check (draft : SourceDraft) : Except Invalid Source :=
  let at_ {α : Type} (name : String) (reading : Checked α) : Checked α :=
    reading.under (.field name)
  let build (id : String) (category : SourceCategory) (capability : Capability)
      (origin : Option String) (trust : TrustLevel) (timeout : Option Number.Binary64)
      (description : String) : Source :=
    { id, category, capability, origin, trust, timeout, description }
  Checked.named "SourceDescriptor" <|
    (Checked.apply · (at_ "description" (Payload.readText draft.description))) <|
    (Checked.apply ·
      (at_ "timeout_s" (Payload.readOptional Payload.readSeconds draft.timeout))) <|
    (Checked.apply · (at_ "trust_level" (Payload.readName TrustLevel draft.trust))) <|
    (Checked.apply · (at_ "origin_id" (Payload.readOptional Payload.readText draft.origin))) <|
    (Checked.apply · (at_ "produce" (checkProvider draft.provider))) <|
    (Checked.apply · (at_ "category" (Payload.readName SourceCategory draft.category))) <|
    (at_ "id" (Payload.readNonempty draft.id)).map build

/-- Sources by id. -/
abbrev Sources := Assoc String Source

namespace Sources

/-- Add a source whose id is free. -/
def add (sources : Sources) (s : Source) : Except Fault Sources :=
  if sources.has s.id then .error ⟨.duplicate .source s.id, none⟩
  else .ok (sources.put s.id s)

/-- The source of an id. -/
def get (sources : Sources) (id : String) : Except Fault Source :=
  match sources.find? id with
  | some s => .ok s
  | none => .error ⟨.unknown .source id, none⟩

/-- The sources in the order of their ids, all of them or those of a category. -/
def list (sources : Sources) (category : Option SourceCategory := none) : List Source :=
  let sorted := (sources.map Prod.snd).mergeSort fun a b => !decide (b.id < a.id)
  match category with
  | none => sorted
  | some wanted => sorted.filter fun s => s.category = wanted

end Sources

end TaintFlow
