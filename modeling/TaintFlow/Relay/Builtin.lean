import TaintFlow.Relay.Operator
import TaintFlow.Template.Fill
import TaintFlow.Json.Reader
import TaintFlow.Json.Basic
import TaintFlow.Text.Utf8
import TaintFlow.Text.Base64

/-!
# Built-in operators

Plain transforms of payloads, one for each way in which data changes its shape
on the way through a program: joining, interpolation, encoding and decoding,
array and object handling.
-/

namespace TaintFlow

namespace Payload

/-- The JSON value that a payload is exactly, if it is one: no tuples, no bytes, and text keys
only. -/
def toJson? : Payload → Option Json
  | .null => some .null
  | .bool b => some (.bool b)
  | .int n => some (.int n)
  | .float x => some (.float x)
  | .text s => some (.text s)
  | .list items => (itemsToJson? items).map .array
  | .map entries => (entriesToJson? entries).map .object
  | _ => none
where
  /-- The JSON values of a sequence. -/
  itemsToJson? : List Payload → Option (List Json)
    | [] => some []
    | a :: rest =>
      match toJson? a, itemsToJson? rest with
      | some a, some rest => some (a :: rest)
      | _, _ => none
  /-- The members of a mapping. -/
  entriesToJson? : List (Payload × Payload) → Option (List (String × Json))
    | [] => some []
    | (key, item) :: rest =>
      match keyToJson? key, toJson? item, entriesToJson? rest with
      | some key, some item, some rest => some ((key, item) :: rest)
      | _, _, _ => none
  /-- The name of a member. -/
  keyToJson? : Payload → Option String
    | .text key => some key
    | _ => none

/-- The payload of a JSON value. -/
def ofJson : Json → Payload
  | .null => .null
  | .bool b => .bool b
  | .int n => .int n
  | .float x => .float x
  | .text s => .text s
  | .array items => .list (ofItems items)
  | .object members => .map (ofMembers members)
where
  /-- The payloads of an array. -/
  ofItems : List Json → List Payload
    | [] => []
    | a :: rest => ofJson a :: ofItems rest
  /-- The entries of an object. -/
  ofMembers : List (String × Json) → List (Payload × Payload)
    | [] => []
    | (key, item) :: rest => (.text key, ofJson item) :: ofMembers rest

mutual

/-- What keeps a payload from being a JSON value. -/
def inexact? (operator : String) : Payload → Option Mishap
  | .null | .bool _ | .int _ | .float _ | .text _ => none
  | .list items => inexactIn? operator items
  | .map entries => inexactEntry? operator entries
  | other => some (.badType s!"{operator} cannot round-trip {other.typeName} exactly")

/-- The first such thing in a sequence. -/
def inexactIn? (operator : String) : List Payload → Option Mishap
  | [] => none
  | a :: rest =>
    match inexact? operator a with
    | some mishap => some mishap
    | none => inexactIn? operator rest

/-- The first such thing in a mapping. -/
def inexactEntry? (operator : String) : List (Payload × Payload) → Option Mishap
  | [] => none
  | (.text _, item) :: rest =>
    match inexact? operator item with
    | some mishap => some mishap
    | none => inexactEntry? operator rest
  | (key, _) :: _ => some (.badType s!"{operator} needs string keys, got {key.typeName}")

end

end Payload

namespace Builtin

/-- Read JSON back. -/
def readBack (text : List Char) : Except Mishap Payload :=
  match Json.read text with
  | some json => .ok (Payload.ofJson json)
  | none => .error ⟨"JSONDecodeError", "Expecting value: line 1 column 1 (char 0)"⟩

/-- Write a payload as JSON, exactly. -/
def writeExact (operator : String) (payload : Payload) : Except Mishap (List Char) :=
  match Payload.inexact? operator payload with
  | some mishap => .error mishap
  | none =>
    if payload.isWritable then .ok ((payload.toJson?.getD .null).write)
    else .error Number.unwritable

/-- Write JSON and read it back. -/
def jsonRoundTrip (payload : Payload) : Except Mishap Payload := do
  readBack (← writeExact "json_round_trip" payload)

/-- Read text from base64. -/
def textFromBase64 (encoded : List Char) : Except Mishap (List Char) :=
  match Text.Base64.decode encoded with
  | none => .error (.badValue "Incorrect padding")
  | some bytes =>
    match Text.Utf8.decode bytes with
    | .ok text => .ok text.toList
    | .error _ => .error ⟨"UnicodeDecodeError", "invalid start byte"⟩

/-- Write base64 and read it back: bytes as they are, text as UTF-8, anything else as JSON. -/
def base64RoundTrip (payload : Payload) : Except Mishap Payload :=
  match payload with
  | .bytes b =>
    match Text.Base64.decode (Text.Base64.encode b) with
    | some bytes => .ok (.bytes bytes)
    | none => .error (.badValue "Incorrect padding")
  | .text s => do
    let text ← textFromBase64 (Text.Base64.encode (← Text.Utf8.encodeWhole s.toList))
    return .text (String.ofList text)
  | other => do
    let json ← writeExact "base64_round_trip" other
    readBack (← textFromBase64 (Text.Base64.encode (Text.Utf8.encode json)))

/-- The present items of a sequence; anything else is a sequence of itself. -/
def arrayOps : Payload → Payload
  | .list items => .list (items.filter Payload.isPresent)
  | .tuple items => .list (items.filter Payload.isPresent)
  | other => .list ([other].filter Payload.isPresent)

/-- The mapping with the entries of a second one written over its own. -/
def objectSpread (payload extra : Payload) : Except Mishap Payload :=
  match payload with
  | .map entries =>
    if extra.isPresent then
      match extra with
      | .map more => .ok (.map (Payload.Entries.merge entries more))
      | other => .error (.badType s!"'{other.fullTypeName}' object is not a mapping")
    else .ok (.map entries)
  | other => .error (.badType s!"object_spread expects a mapping, got {other.typeName}")

/-- The members of whatever can be gone through. -/
def membersOf : Payload → Except Mishap (List Payload)
  | .list items | .tuple items | .set items => .ok items
  | .text s => .ok (s.toList.map fun c => .text (String.singleton c))
  | .bytes b => .ok (b.map fun n => .int n.toNat)
  | .map entries => .ok (entries.map Prod.fst)
  | other => .error (.badType s!"'{other.fullTypeName}' object is not iterable")

/-- Project a mapping to some keys; a key that it lacks has no value. -/
def project (entries : Payload.Entries) : List Payload → Except Mishap Payload.Entries
  | [] => .ok []
  | key :: rest =>
    match Payload.unhashable? key with
    | some kind => .error (.badType s!"unhashable type: '{kind}'")
    | none => do
      let rest ← project entries rest
      return (key, (Payload.Entries.find? key entries).getD .null) :: rest

/-- Project a mapping to selected keys. -/
def destructure (payload keys : Payload) : Except Mishap Payload :=
  match payload with
  | .map entries => do
    let wanted ← match keys with
      | .null => pure [.text "a", .text "b", .text "c"]
      | other => membersOf other
    return .map (Payload.Entries.ofList (← project entries wanted))
  | other => .error (.badType s!"destructure expects a mapping, got {other.typeName}")

/-- The text of a payload on its own, if it can be written. -/
def writtenText (payload : Payload) : Except Mishap String :=
  if payload.isWritable then .ok payload.plain else .error Number.unwritable

/-- The texts of payloads with a separator between them. -/
def joinTexts (separator : String) (payloads : List Payload) : Except Mishap Payload := do
  return .text (separator.intercalate (← payloads.mapM writtenText))

/-- The present parts of a command, a blank between them. -/
def buildCommand (payload target options : Payload) : Except Mishap Payload :=
  let parts := match payload with
    | .map entries =>
      ["command", "target", "options"].map fun key =>
        (Payload.Entries.text? key entries).getD .null
    | other => [other, target, options]
  joinTexts " " (parts.filter Payload.isPresent)

/-- The texts of the inputs with a separator between them. -/
def concatMerge (payloads : List Payload) (separator : Payload) : Except Mishap Payload :=
  match separator with
  | .text separator => joinTexts separator payloads
  | .bytes _ => .error (.badType "sequence item 0: expected a bytes-like object, str found")
  | other => .error (.noAttribute s!"'{other.fullTypeName}' object has no attribute 'join'")

/-- The entries of all inputs, later ones written over earlier ones. -/
def objectMerge (merged : Payload.Entries) : List Payload → Except Mishap Payload
  | [] => .ok (.map merged)
  | .map entries :: rest => objectMerge (Payload.Entries.merge merged entries) rest
  | other :: _ => .error (.badType s!"object_merge expects mappings, got {other.typeName}")

/-- Replace a row of characters wherever it stands in another, from left to right. -/
def replaceAll (pattern replacement : List Char) : Nat → List Char → List Char
  | 0, text => text
  | _ + 1, [] => []
  | fuel + 1, c :: rest =>
    if pattern.isPrefixOf (c :: rest) then
      replacement ++ replaceAll pattern replacement fuel ((c :: rest).drop pattern.length)
    else c :: replaceAll pattern replacement fuel rest

/-- A name between braces. -/
def placeholder (name : String) : List Char := '\x7b' :: (name.toList ++ ['\x7d'])

/-- Put a value in the place of a placeholder. -/
def substitute (template name value : Payload) : Except Mishap Payload :=
  match template with
  | .text s => do
    let pattern := placeholder (← writtenText name)
    let replacement ← writtenText value
    let row := s.toList
    return .text (String.ofList (replaceAll pattern replacement.toList (row.length + 1) row))
  | .bytes _ => .error (.badType "a bytes-like object is required, not 'str'")
  | .moment _ => .error (.badType "'str' object cannot be interpreted as an integer")
  | other => .error (.noAttribute s!"'{other.fullTypeName}' object has no attribute 'replace'")

/-- Put every value of a mapping in the place of its key, one key after the other. -/
def substituteAll (template : Payload) : Payload.Entries → Except Mishap Payload
  | [] => .ok template
  | (key, value) :: rest => do substituteAll (← substitute template key value) rest

/-- Substitute placeholders: every key of a mapping, or one name for any other payload. -/
def interpolate (payload template name : Payload) : Except Mishap Payload :=
  match payload with
  | .map entries => substituteAll template entries
  | other => substitute template name other

/-- Fill a template from the inputs. -/
def fillTemplate (payloads : List Payload) (template : Payload) : Except Mishap Payload :=
  match template with
  | .text s =>
    match Template.fill s payloads with
    | .ok filled => .ok (.text filled)
    | .error fault => .error fault.mishap
  | other => .error (.noAttribute s!"'{other.fullTypeName}' object has no attribute 'format'")

/-- A text parameter with a default. -/
def option (params : Params) (key : String) (usual : Payload) : Payload :=
  (params.find? key).getD usual

/-- The function of an operator of one payload, its parameters checked. -/
def unary (name : String) (options : List String)
    (act : Payload → (String → Payload → Payload) → Except Mishap Payload) : Action :=
  .onPayloads fun payloads params _ =>
    .ofResult do
      Signature.check ⟨name, some "payload", options, none⟩ params
      act (payloads.headD .null) (option params)

/-- The function of an operator of several payloads, its parameters checked. -/
def variadic (name : String) (options : List String) (required : Option String)
    (act : List Payload → (String → Payload → Payload) → Except Mishap Payload) : Action :=
  .onPayloads fun payloads params _ =>
    .ofResult do
      Signature.check ⟨name, none, options, required⟩ params
      act payloads (option params)

/-- An operator that hands its payload on. -/
def identity (id description : String) : Operator :=
  { id, description, action := unary id [] fun payload _ => .ok payload }

/-- An operator of one payload. -/
def single (id description : String) (options : List String)
    (act : Payload → (String → Payload → Payload) → Except Mishap Payload) : Operator :=
  { id, description, action := unary id options act }

/-- The built-in operators. -/
def operators : List Operator :=
  [identity "passthrough" "identity",
   identity "array_relay" "wrap in a list and unwrap",
   identity "object_relay" "store in a dict and read back",
   identity "multi_hop" "passthrough, array and object relays",
   single "concat" "prefix + value + suffix" ["prefix", "suffix"] fun payload get =>
    joinTexts "" [get "prefix" (.text ""), payload, get "suffix" (.text "")],
   single "interpolate" "placeholder substitution" ["template", "placeholder"] fun payload get =>
    interpolate payload (get "template" (.text "\x7bvalue\x7d"))
      (get "placeholder" (.text "value")),
   { id := "template", description := "str.format over inputs", arity := none,
     action := variadic "format_template" ["template"] (some "template") fun payloads get =>
      fillTemplate payloads (get "template" .null) },
   single "json_round_trip" "JSON encode then decode" [] fun payload _ => jsonRoundTrip payload,
   single "base64_round_trip" "base64 encode then decode" [] fun payload _ =>
    base64RoundTrip payload,
   single "array_ops" "map, filter and reduce" [] fun payload _ => .ok (arrayOps payload),
   single "object_spread" "shallow copy with extra keys" ["extra"] fun payload get =>
    objectSpread payload (get "extra" .null),
   single "destructure" "project selected keys" ["keys"] fun payload get =>
    destructure payload (get "keys" .null),
   single "build_command" "join command parts" ["target", "options"] fun payload get =>
    buildCommand payload (get "target" .null) (get "options" .null),
   { id := "concat_merge", description := "join inputs as text", arity := none,
     action := variadic "concat_merge" ["separator"] none fun payloads get =>
      concatMerge payloads (get "separator" (.text "")) },
   { id := "object_merge", description := "spread-merge mappings", arity := none,
     action := variadic "object_merge" [] none fun payloads _ => objectMerge [] payloads },
   { id := "literal", description := "replace the value with a constant", preserving := false,
     action := unary "literal" ["value"] fun _ get => .ok (get "value" (.text "")) }]

end Builtin

end TaintFlow
