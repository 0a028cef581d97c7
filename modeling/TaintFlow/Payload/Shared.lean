import TaintFlow.Payload.Equality
import TaintFlow.Data.Assoc

/-!
# Payloads with shared parts

A text can name a part of what it tells and use it in several places.  Such a
part is kept once, in a table, and the places refer to it by its anchor, so that
a write into the part is seen in all of them.

A table lists each part behind those that it refers to, and one pass over it
tells the payload of every part.  Only a part that holds itself refers to one
that is not listed yet; it has no payload, but it can be unfolded to a depth.
-/

namespace TaintFlow

/-- Where a part was named: the text that it is from, and its name there. -/
structure Anchor where
  home : String
  name : String
  deriving DecidableEq

/-- A payload that may refer to shared parts. -/
inductive Draft where
  | whole (payload : Payload)
  | list (items : List Draft)
  | tuple (items : List Draft)
  | map (entries : List (Payload × Draft))
  | part (anchor : Anchor)

/-- Shared parts by their anchors. -/
abbrev Parts := Assoc Anchor Draft

namespace Draft

/-- The entries of a mapping, in order. -/
abbrev Entries := List (Payload × Draft)

mutual

/-- The payload of a draft, given those of the parts that it refers to. -/
def fill (known : Assoc Anchor Payload) : Draft → Option Payload
  | .whole payload => some payload
  | .list items => (fillAll known items).map .list
  | .tuple items => (fillAll known items).map .tuple
  | .map entries => (fillEntries known entries).map .map
  | .part anchor => known.find? anchor

/-- The payloads of a sequence of drafts. -/
def fillAll (known : Assoc Anchor Payload) : List Draft → Option (List Payload)
  | [] => some []
  | item :: rest => do return (← fill known item) :: (← fillAll known rest)

/-- The entries of a mapping whose values are drafts. -/
def fillEntries (known : Assoc Anchor Payload) :
    List (Payload × Draft) → Option Payload.Entries
  | [] => some []
  | (key, value) :: rest => do return (key, ← fill known value) :: (← fillEntries known rest)

end

end Draft

namespace Parts

/-- What is known about the payloads of parts after one pass over them. -/
def pass (parts : Parts) (known : Assoc Anchor Payload) : Assoc Anchor Payload :=
  parts.foldl (fun known (anchor, draft) =>
    match draft.fill known with
    | some payload => known.put anchor payload
    | none => known) known

/-- How deep parts that hold themselves are unfolded; no reader of a payload looks deeper. -/
def depth : Nat := 8

/-- The payloads of parts, those that hold themselves being empty below the depth. -/
def unfolded (parts : Parts) : Assoc Anchor Payload :=
  Nat.repeat (pass parts) depth (parts.map fun (anchor, _) => (anchor, .map []))

/-- The entries of a draft that is a mapping or refers to one. -/
def entries? (parts : Parts) : Draft → Option Draft.Entries
  | .map entries => some entries
  | .whole (.map entries) => some (entries.map fun (key, value) => (key, .whole value))
  | .part anchor =>
    match parts.find? anchor with
    | some (.map entries) => some entries
    | _ => none
  | _ => none

end Parts

/-- Something that refers to shared parts, with these parts. -/
structure Shared (α : Type) where
  body : α
  parts : Parts := []

namespace Shared

/-- The payload of a draft; `none` if it holds itself. -/
def payload? (s : Shared Draft) : Option Payload := s.body.fill (s.parts.pass [])

/-- The payload of a draft, unfolded where it holds itself. -/
def unfolded (s : Shared Draft) : Payload :=
  match s.payload? with
  | some payload => payload
  | none => (s.body.fill s.parts.unfolded).getD .null

/-- A mapping with shared parts as a draft. -/
def asDraft (s : Shared Draft.Entries) : Shared Draft := { s with body := .map s.body }

/-- The mapping of payloads that nothing shares. -/
def ofEntries (entries : Payload.Entries) : Shared Draft.Entries :=
  ⟨entries.map fun (key, value) => (key, .whole value), []⟩

/-- The entries of a mapping, unfolded where it holds itself. -/
def entries (s : Shared Draft.Entries) : Payload.Entries :=
  match s.asDraft.unfolded with
  | .map entries => entries
  | _ => []

end Shared

end TaintFlow
