import TaintFlow.Relay.Builtin

/-!
# Values on a wire

A value that leaves the process is written as JSON: tuples become arrays, bytes
become the text that they spell, keys become texts, and doubles that are not
finite become nothing.  What is read back is therefore the value itself only if
its payload is JSON to begin with.
-/

namespace TaintFlow

open Number

/-- Why a payload cannot be written. -/
inductive Unwritable where
  /-- Bytes that spell no text, as a value or as a key. -/
  | notText (bytes : List UInt8) (fault : Text.Utf8.Fault) (isKey : Bool)
  /-- A text in which halves of characters stand alone. -/
  | notEncodable (text : List Char)
  | unknownKind (kind : String)
  | tooDeep

namespace Unwritable

/-- What is wrong with bytes that spell no text, in the words of a writer. -/
def faultText : Text.Utf8.Fault → String
  | .invalid length index => s!"invalid utf-8 sequence of {length} bytes from index {index}"
  | .incomplete index => s!"incomplete utf-8 byte sequence from index {index}"

/-- The mishap of taking bytes for a text. -/
def undecoded (bytes : List UInt8) (fault : Text.Utf8.Fault) : Mishap :=
  let start := fault.index
  let stop := match fault with
    | .invalid length _ => start + length
    | .incomplete _ => bytes.length
  let what :=
    if stop = start + 1 then
      let code := String.ofList (Text.hexPadded 2 (bytes.getD start 0).toNat)
      s!"byte 0x{code} in position {start}"
    else s!"bytes in position {start}-{stop - 1}"
  ⟨"UnicodeDecodeError", s!"'utf-8' codec can't decode {what}: invalid utf-8"⟩

/-- The mishap of a payload that nests too deep. -/
def overDeep : Mishap := .badValue "Maximum serialization depth exceeded"

/-- The mishap of a kind of payload that has no written form. -/
def ofUnknown (kind : String) : Mishap :=
  ⟨"PydanticSerializationError", s!"Unable to serialize unknown type: <class '{kind}'>"⟩

/-- The mishap of taking a payload into a record. -/
def inRecord : Unwritable → Mishap
  | notText bytes fault _ => undecoded bytes fault
  | notEncodable text => Text.Utf8.unencoded text
  | unknownKind kind => ofUnknown kind
  | tooDeep => overDeep

/-- A mishap inside the writing of JSON. -/
def wrapped (text : String) : Mishap :=
  ⟨"PydanticSerializationError", "Error serializing to JSON: " ++ text⟩

/-- The mishap of writing a payload as JSON text. -/
def onWire : Unwritable → Mishap
  | notText _ fault false => wrapped (faultText fault)
  | unknownKind kind => ofUnknown kind
  | other => wrapped (other.inRecord.kind ++ ": " ++ other.inRecord.text)

end Unwritable

namespace Payload

/-- The text that bytes spell. -/
def textOfBytes (isKey : Bool) (bytes : List UInt8) : Except Unwritable String :=
  match Text.Utf8.decode bytes with
  | .ok spelt => .ok spelt
  | .error fault => .error (.notText bytes fault isKey)

/-- A text, if it can be encoded. -/
def encodable (s : String) : Except Unwritable String :=
  if Text.hasHalf s.toList then .error (.notEncodable s.toList) else .ok s

mutual

/-- The text of a key on a wire. -/
def wireKey : Payload → Except Unwritable String
  | .null => .ok "None"
  | .bool b => .ok (if b then "true" else "false")
  | .int n => .ok (toString n)
  | .float x => .ok (if x.isFinite then x.text else "None")
  | .text s => encodable s
  | .bytes b => textOfBytes true b
  | .moment m => .ok m.onWire
  | .tuple items => (wireKeys items).map (",".intercalate ·)
  | other => .error (.unknownKind other.typeName)

/-- The texts of the members of a key. -/
def wireKeys : List Payload → Except Unwritable (List String)
  | [] => .ok []
  | a :: rest => do return (← wireKey a) :: (← wireKeys rest)

end

/-- A label on a wire. -/
def wireLabel (label : Label) : Json :=
  .object [("origin_id", .text label.origin), ("category", .text label.category.text),
    ("trust_level", .text label.trust.text)]

/-- A labelled payload on a wire. -/
def wireValue (encoded : Bool) (payload : Json) (labels : LabelSet) (hops : Nat) :
    Except Unwritable Json := do
  if encoded then discard (labels.toList.mapM fun label => encodable label.origin)
  return .object [("payload", payload), ("labels", .array (labels.toList.map wireLabel)),
    ("hop_count", .int hops)]

/-- The deepest nesting that is written. -/
def maxDepth : Nat := 254

mutual

/-- A payload on a wire; `room` is how deep it may nest, and `encoded` is whether it has to be
encoded, which a text with halves that stand alone cannot be. -/
def wireIn (encoded : Bool) (room : Nat) : Payload → Except Unwritable Json
  | .null => .ok .null
  | .bool b => .ok (.bool b)
  | .int n => .ok (.int n)
  | .float x => .ok (if x.isFinite then .float x else .null)
  | .text s => if encoded then (encodable s).map .text else .ok (.text s)
  | .bytes b => (textOfBytes false b).map .text
  | .moment m => .ok (.text m.onWire)
  | .list items | .tuple items | .set items =>
    if room = 0 then .error .tooDeep else (wireItems encoded (room - 1) items).map .array
  | .map entries =>
    if room = 0 then .error .tooDeep
    else (wireEntries encoded (room - 1) entries).map fun members =>
      .object (Assoc.ofList members)
  | .value payload labels hops =>
    if room = 0 then .error .tooDeep
    else do wireValue encoded (← wireIn encoded (room - 1) payload) labels hops

/-- The members of a sequence on a wire. -/
def wireItems (encoded : Bool) (room : Nat) : List Payload → Except Unwritable (List Json)
  | [] => .ok []
  | a :: rest => do return (← wireIn encoded room a) :: (← wireItems encoded room rest)

/-- The entries of a mapping on a wire. -/
def wireEntries (encoded : Bool) (room : Nat) :
    List (Payload × Payload) → Except Unwritable (List (String × Json))
  | [] => .ok []
  | (key, item) :: rest => do
    let key ← wireKey key
    let item ← wireIn encoded room item
    return (key, item) :: (← wireEntries encoded room rest)

end

/-- A payload on a wire. -/
def wire (payload : Payload) : Except Unwritable Json := wireIn true maxDepth payload

/-- A payload in a record, which is not encoded yet. -/
def recorded (payload : Payload) : Except Unwritable Json := wireIn false maxDepth payload

end Payload

/-- Can a reader of wires take a JSON value in?  It follows nesting only so deep, and numbers
only so far. -/
def Json.isReceivable : Nat → Json → Bool
  | _, .int n => (toString n).length ≤ maxDigits
  | room, .array items => 0 < room && itemsAreReceivable (room - 1) items
  | room, .object members => 0 < room && membersAreReceivable (room - 1) members
  | _, _ => true
where
  /-- Can the items of an array be taken in? -/
  itemsAreReceivable (room : Nat) : List Json → Bool
    | [] => true
    | a :: rest => isReceivable room a && itemsAreReceivable room rest
  /-- Can the members of an object be taken in? -/
  membersAreReceivable (room : Nat) : List (String × Json) → Bool
    | [] => true
    | (_, a) :: rest => isReceivable room a && membersAreReceivable room rest

namespace Value

/-- The deepest nesting that is read from a wire. -/
def maxReadDepth : Nat := 200

/-- A value on a wire. -/
def toWire (v : Value) : Except Unwritable Json := do
  Payload.wireValue true (← Payload.wire v.payload) v.labels v.hops

/-- The label that a JSON value is. -/
def labelOfWire? (json : Json) : Option Label := do
  let origin ← (← json.member? "origin_id").text?
  let category ← Enumeration.ofName? (← (← json.member? "category").text?)
  let trust ← Enumeration.ofName? (← (← json.member? "trust_level").text?)
  return ⟨origin, category, trust⟩

/-- The value that a text on a wire is. -/
def ofWire? (text : List Char) : Option Value := do
  let json ← Json.read text
  let payload ← json.member? "payload"
  let labels ← (← json.member? "labels").items.mapM labelOfWire?
  let hops ← (← json.member? "hop_count").int?
  return ⟨Payload.ofJson payload, .ofList labels, hops.toNat⟩

/-- The value that arrives on the other side of a wire. -/
def receive (written : Json) : Checked Value :=
  if written.isReceivable maxReadDepth then
    match ofWire? written.write with
    | some value => .ok value
    | none => Checked.issue .malformedJson
  else Checked.issue .malformedJson

end Value

end TaintFlow
