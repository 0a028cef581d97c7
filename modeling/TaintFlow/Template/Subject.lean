import TaintFlow.Template.Fault
import TaintFlow.Template.Kind
import TaintFlow.Payload.Show
import TaintFlow.Payload.Equality

/-!
# Subjects of a template

What a field of a template can lead to: a payload, the kind of a payload, a
member of a kind, or a member that is bound to a subject.  A field leaves an
input by attributes and by indexes, and each step leads to another subject.
-/

namespace TaintFlow.Template

open Number

/-- What a field leads to. -/
inductive Subject where
  | payload (p : Payload)
  | labels (set : LabelSet)
  | zone (offset : Int)
  /-- A span of time, in millionths of a second. -/
  | span (micros : Int)
  | kind (k : Kind)
  | kinds (all : List Kind)
  /-- A kind with an index. -/
  | indexedKind (k : Kind) (index : Payload)
  | member (m : KindMember)
  /-- A function of a kind, taken from a subject. -/
  | bound (m : KindMember) (target : Subject)

namespace Subject

/-- The kind of a payload. -/
def kindOf : Payload → Kind
  | .moment m => .calendar m.kind
  | .value .. => .labelled
  | other => .builtin other.typeName

/-- The kind of a subject. -/
def ownKind : Subject → Kind
  | payload p => kindOf p
  | labels _ => .builtin "frozenset"
  | zone _ => .calendar "timezone"
  | span _ => .calendar "timedelta"
  | kind _ => .builtin "type"
  | kinds _ => .builtin "tuple"
  | indexedKind .. => ⟨"types", "GenericAlias"⟩
  | member m => m.kind
  | bound m _ =>
    .builtin (if m.form = .operation then "method-wrapper" else "builtin_function_or_method")

/-- The name of the kind of a subject. -/
def typeName (subject : Subject) : String := subject.ownKind.title

/-- The texts of kinds, as a tuple. -/
def kindsText (all : List Kind) : String :=
  match all.map Kind.text with
  | [text] => "(" ++ text ++ ",)"
  | texts => "(" ++ commaSeparated texts ++ ")"

/-- The text of a subject inside a larger value. -/
def shown : Subject → String
  | payload p => p.shown
  | labels set => set.shown
  | zone offset => Moment.zoneText offset
  | span micros => Moment.spanText micros
  | kind k => k.text
  | kinds all => kindsText all
  | indexedKind k index => s!"{k.name}[{index.shown}]"
  | member m => m.text
  | bound m target =>
    if m.form = .operation then s!"<method-wrapper '{m.name}' of {target.typeName} object>"
    else s!"<built-in method {m.name} of {target.typeName} object>"

/-- The text of a subject on its own. -/
def plain : Subject → String
  | payload p => p.plain
  | zone offset => Moment.zoneName offset
  | span micros => Moment.spanPlain micros
  | other => other.shown

/-- The attributes of a whole number. -/
def numberAttribute? (n : Int) (name : String) : Option Int :=
  if name = "real" ∨ name = "numerator" then some n
  else if name = "imag" then some 0
  else if name = "denominator" then some 1
  else none

/-- The attributes of a moment that are numbers. -/
def momentNumber? (m : Moment) (name : String) : Option Nat :=
  let clocked (part : Clock → Nat) : Option Nat := m.clock.map part
  match name with
  | "year" => some m.year
  | "month" => some m.month
  | "day" => some m.day
  | "hour" => clocked Clock.hour
  | "minute" => clocked Clock.minute
  | "second" => clocked Clock.second
  | "microsecond" => clocked Clock.micro
  | "fold" => clocked fun _ => 0
  | _ => none

/-- The attributes of a moment. -/
def momentAttribute? (m : Moment) (name : String) : Option Subject :=
  match momentNumber? m name, name, m.clock with
  | some n, _, _ => some (.payload (.int n))
  | none, "tzinfo", some c => some ((c.offset.map Subject.zone).getD (.payload .null))
  | _, _, _ => none

/-- The parts of a span of time: days, and the seconds and the millionths of seconds that are
left. -/
def spanPart? (micros : Int) : String → Option Int
  | "days" => some (micros.fdiv Moment.dayLength)
  | "seconds" => some ((micros.fmod Moment.dayLength).fdiv 1000000)
  | "microseconds" => some (micros.fmod 1000000)
  | _ => none

/-- The attributes of a labelled value. -/
def valueAttribute? (inner : Payload) (set : LabelSet) (hops : Nat) (name : String) :
    Option Subject :=
  match name with
  | "payload" => some (.payload inner)
  | "labels" => some (.labels set)
  | "hop_count" => some (.payload (.int hops))
  | "is_tainted" => some (.payload (.bool (!set.isEmpty)))
  | _ => none

/-- The attributes of payloads of one kind. -/
def payloadAttribute? (p : Payload) (name : String) : Option Subject :=
  match p with
  | .bool b => (numberAttribute? (if b then 1 else 0) name).map fun n => .payload (.int n)
  | .int n => (numberAttribute? n name).map fun n => .payload (.int n)
  | .float x =>
    if name = "real" then some (.payload (.float x))
    else if name = "imag" then some (.payload (.float (Binary64.zero false)))
    else none
  | .moment m => momentAttribute? m name
  | .value inner set hops => valueAttribute? inner set hops name
  | _ => none

/-- The values that a kind has itself under a name. -/
def ownValue? (k : Kind) (name : String) : Option Subject :=
  let moment (m : Moment) : Option Subject := some (.payload (.moment m))
  match k.name, name with
  | "date", "min" => moment ⟨1, 1, 1, none⟩
  | "date", "max" => moment ⟨9999, 12, 31, none⟩
  | "date", "resolution" => some (.span Moment.dayLength)
  | "datetime", "min" => moment ⟨1, 1, 1, some ⟨0, 0, 0, 0, none⟩⟩
  | "datetime", "max" => moment ⟨9999, 12, 31, some ⟨23, 59, 59, 999999, none⟩⟩
  | "datetime", "resolution" | "timedelta", "resolution" => some (.span 1)
  | "timedelta", "min" => some (.span (-999999999 * Moment.dayLength))
  | "timedelta", "max" => some (.span (1000000000 * Moment.dayLength - 1))
  | "timezone", "utc" => some (.zone 0)
  | "timezone", "min" => some (.zone (-1439))
  | "timezone", "max" => some (.zone 1439)
  | _, "__hash__" => if k.isUnhashable then some (.payload .null) else none
  | _, _ => none

/-- What a kind says about itself, or nothing. -/
def noteOf (k : Kind) : Subject := .payload ((k.note?.map Payload.text).getD .null)

/-- What a kind or a kind above it has under a name: a value, or else a member. -/
def inherited? (k : Kind) (name : String) : Option (Subject ⊕ KindMember) :=
  k.ancestry.findSome? fun owner =>
    match ownValue? owner name, owner.ownMembers.form? name with
    | some value, _ => some (.inl value)
    | none, some form => some (.inr ⟨form, owner, name⟩)
    | none, none => none

/-- The attributes that every kind has. -/
def everyKindAttribute? (k : Kind) (name : String) : Option Subject :=
  let text (s : String) : Option Subject := some (.payload (.text s))
  let above := k.ancestry.drop 1
  match name with
  | "__name__" | "__qualname__" => text k.name
  | "__module__" => text k.family
  | "__mro__" => some (.kinds k.ancestry)
  | "__bases__" => some (.kinds (above.take 1))
  | "__base__" => some ((above.head?.map Subject.kind).getD (.payload .null))
  | "__class__" => some (.kind (.builtin "type"))
  | "__doc__" => some (noteOf k)
  | _ => none

/-- The attributes of a kind: those of every kind, what it has or inherits, and the functions
that kinds have as subjects. -/
def kindAttribute? (k : Kind) (name : String) : Option Subject :=
  match everyKindAttribute? k name, inherited? k name with
  | some found, _ => some found
  | none, some (.inl value) => some value
  | none, some (.inr m) => some (if m.form = .ofKind then .bound m (.kind k) else .member m)
  | none, none => ((Kind.builtin "type").member? name).map fun m => .bound m (.kind k)

/-- The attributes of a member of a kind, bound or not. -/
def memberAttribute? (m : KindMember) (name : String) : Option Subject :=
  match name with
  | "__name__" => some (.payload (.text m.name))
  | "__qualname__" => some (.payload (.text m.fullName))
  | _ => none

/-- The attributes that a subject has of itself. -/
def ownAttribute? (name : String) : Subject → Option Subject
  | payload p => payloadAttribute? p name
  | span micros => (spanPart? micros name).map fun n => .payload (.int n)
  | member m => if name = "__objclass__" then some (.kind m.owner) else memberAttribute? m name
  | bound m target =>
    if name = "__self__" then some target
    else if m.form = .operation then
      if name = "__objclass__" then some (.kind m.owner) else memberAttribute? m name
    else if name = "__module__" then some (.payload .null)
    else memberAttribute? m name
  | _ => none

/-- The attribute of a subject that is no kind: its own, or what its kind has under the name,
bound to it. -/
def instanceAttribute? (name : String) (subject : Subject) : Option Subject :=
  let k := subject.ownKind
  if name = "__class__" then some (.kind k)
  else if name = "__doc__" ∧ (k.note?.isSome ∨ k = .builtin "NoneType") then some (noteOf k)
  else
    match ownAttribute? name subject, inherited? k name with
    | some found, _ => some found
    | none, some (.inl value) => some value
    | none, some (.inr m) =>
      match m.form with
      | .operation | .method => some (.bound m subject)
      | .ofKind => some (.bound m (.kind k))
      | .attribute | .part => none
    | none, none => none

/-- The attribute of a subject.  A kind with an index has the attributes of the kind. -/
def attribute? (name : String) : Subject → Option Subject
  | kind k => kindAttribute? k name
  | indexedKind k index =>
    match name with
    | "__origin__" => some (.kind k)
    | "__args__" => some (.payload (.tuple [index]))
    | "__parameters__" => some (.payload (.tuple []))
    | "__unpacked__" => some (.payload (.bool false))
    | "__class__" => some (.kind (ownKind (.indexedKind k index)))
    | _ => kindAttribute? k name
  | other => instanceAttribute? name other

/-- What messages call a subject without an attribute. -/
def owner : Subject → String
  | kind k | indexedKind k _ => s!"type object '{k.title}'"
  | other => s!"'{other.typeName}' object"

/-- The item of a sequence at a position. -/
def item {α : Type} (kind : String) (members : List α) (index : Nat) : Except Fault α :=
  match members[index]? with
  | some found => .ok found
  | none => .error (.noMember kind)

/-- The payload at a position of a payload. -/
def payloadAt (index : Nat) : Payload → Except Fault Payload
  | .list items => item "list" items index
  | .tuple items => item "tuple" items index
  | .text s => item "str" (s.toList.map fun c => .text (String.singleton c)) index
  | .bytes b => item "bytes" (b.map fun n => .int n.toNat) index
  | .map entries =>
    match Payload.Entries.find? (.int index) entries with
    | some found => .ok found
    | none => .error (.noKey (toString index))
  | other => .error (.notIndexed other.fullTypeName)

/-- A kind with an index, if it can have one. -/
def kindAt (k : Kind) (index : Payload) : Except Fault Subject :=
  if k.isIndexed then .ok (.indexedKind k index) else .error (.noIndexOn k.title)

/-- The subject at a position of a subject. -/
def atPosition (index : Nat) : Subject → Except Fault Subject
  | payload p => (payloadAt index p).map .payload
  | kinds all => (item "tuple" all index).map .kind
  | kind k => kindAt k (.int index)
  | indexedKind k given => .error (.notGeneric (shown (.indexedKind k given)))
  | other => .error (.notIndexed other.typeName)

/-- The subject at a text key of a subject. -/
def atKey (key : String) : Subject → Except Fault Subject
  | payload (.map entries) =>
    match Payload.Entries.text? key entries with
    | some found => .ok (.payload found)
    | none => .error (.noKey (Text.quoted key))
  | payload (.list _) => .error (.badIndexType "list")
  | payload (.tuple _) | kinds _ => .error (.badIndexType "tuple")
  | payload (.text _) => .error (.badIndexType "str")
  | payload (.bytes _) => .error (.badIndexType "bytes")
  | kind k => kindAt k (.text key)
  | indexedKind k given => .error (.notGeneric (shown (.indexedKind k given)))
  | other => .error (.notIndexed other.typeName)

end Subject

end TaintFlow.Template
