import Mathlib.Tactic.Tauto
import TaintFlow.Proofs.Data.Except
import TaintFlow.Proofs.Json.Fidelity
import TaintFlow.Relay.Wire

/-!
# Payloads in records

A payload can be taken into a record exactly if all bytes in it spell texts, each
key of a mapping in it has a text, and it nests no deeper than records do: the
main statement is `recorded_iff`.  What is taken in is plain JSON.
-/

namespace TaintFlow.Payload

open Text

/-! ## What can be taken in -/

/-- A payload that has a text as a key. -/
inductive SpeltKey : Payload → Prop where
  | null : SpeltKey .null
  | bool (b : Bool) : SpeltKey (.bool b)
  | int (n : Int) : SpeltKey (.int n)
  | float (x : Number.Binary64) : SpeltKey (.float x)
  | moment (m : Moment) : SpeltKey (.moment m)
  | text {s : String} (whole : hasHalf s.toList = false) : SpeltKey (.text s)
  | bytes {b : List UInt8} {s : String} (spells : Utf8.decode b = .ok s) : SpeltKey (.bytes b)
  | tuple {items : List Payload} (each : ∀ item ∈ items, SpeltKey item) : SpeltKey (.tuple items)

/-- All bytes in the payload spell texts, and all keys in it have texts. -/
inductive Spelt : Payload → Prop where
  | null : Spelt .null
  | bool (b : Bool) : Spelt (.bool b)
  | int (n : Int) : Spelt (.int n)
  | float (x : Number.Binary64) : Spelt (.float x)
  | text (s : String) : Spelt (.text s)
  | moment (m : Moment) : Spelt (.moment m)
  | bytes {b : List UInt8} {s : String} (spells : Utf8.decode b = .ok s) : Spelt (.bytes b)
  | list {items : List Payload} (each : ∀ item ∈ items, Spelt item) : Spelt (.list items)
  | tuple {items : List Payload} (each : ∀ item ∈ items, Spelt item) : Spelt (.tuple items)
  | set {items : List Payload} (each : ∀ item ∈ items, Spelt item) : Spelt (.set items)
  | map {entries : Entries} (keys : ∀ entry ∈ entries, SpeltKey entry.1)
      (each : ∀ entry ∈ entries, Spelt entry.2) : Spelt (.map entries)
  | value {payload : Payload} (inner : Spelt payload) (labels : LabelSet) (hops : Nat) :
      Spelt (.value payload labels hops)

mutual

/-- How many collections and values are open at the deepest place of a payload. -/
def nesting : Payload → Nat
  | .list items | .tuple items | .set items => nestingOfItems items + 1
  | .map entries => nestingOfEntries entries + 1
  | .value payload _ _ => nesting payload + 1
  | _ => 0

/-- How deep the items of a sequence nest. -/
def nestingOfItems : List Payload → Nat
  | [] => 0
  | item :: rest => max (nesting item) (nestingOfItems rest)

/-- How deep the values of a mapping nest. -/
def nestingOfEntries : List (Payload × Payload) → Nat
  | [] => 0
  | (_, item) :: rest => max (nesting item) (nestingOfEntries rest)

end

/-! ## Keys -/

theorem exists_textOfBytes {b : List UInt8} (isKey : Bool) :
    (∃ text, textOfBytes isKey b = .ok text) ↔ ∃ s, Utf8.decode b = .ok s := by
  unfold textOfBytes
  cases Utf8.decode b with
  | error fault => exact ⟨nofun, nofun⟩
  | ok s => exact ⟨fun _ => ⟨s, rfl⟩, fun _ => ⟨s, rfl⟩⟩

theorem exists_encodable {s : String} :
    (∃ text, encodable s = .ok text) ↔ hasHalf s.toList = false := by
  unfold encodable
  cases hasHalf s.toList with
  | true => exact ⟨nofun, nofun⟩
  | false => exact ⟨fun _ => rfl, fun _ => ⟨s, rfl⟩⟩

mutual

theorem exists_wireKey : ∀ key : Payload, (∃ text, wireKey key = .ok text) ↔ SpeltKey key
  | .null => ⟨fun _ => .null, fun _ => ⟨_, rfl⟩⟩
  | .bool b => ⟨fun _ => .bool b, fun _ => ⟨_, rfl⟩⟩
  | .int n => ⟨fun _ => .int n, fun _ => ⟨_, rfl⟩⟩
  | .float x => ⟨fun _ => .float x, fun _ => ⟨_, rfl⟩⟩
  | .moment m => ⟨fun _ => .moment m, fun _ => ⟨_, rfl⟩⟩
  | .text _ => exists_encodable.trans ⟨.text, fun | .text whole => whole⟩
  | .bytes _ =>
    (exists_textOfBytes true).trans ⟨fun ⟨_, spells⟩ => .bytes spells, fun | .bytes spells => ⟨_, spells⟩⟩
  | .tuple items =>
    (Except.exists_map_eq_ok.trans (exists_wireKeys items)).trans
      ⟨.tuple, fun | .tuple each => each⟩
  | .list _ | .map _ | .set _ | .value .. => ⟨nofun, nofun⟩

theorem exists_wireKeys : ∀ items : List Payload,
    (∃ texts, wireKeys items = .ok texts) ↔ ∀ item ∈ items, SpeltKey item
  | [] => ⟨fun _ _ inside => absurd inside List.not_mem_nil, fun _ => ⟨[], rfl⟩⟩
  | item :: rest => by
    rw [wireKeys, Except.exists_both_eq_ok, exists_wireKey item, exists_wireKeys rest,
      List.forall_mem_cons]

end

/-! ## Values -/

/-- A labelled payload as it is taken in. -/
def labelled (payload : Json) (labels : LabelSet) (hops : Nat) : Json :=
  .object [("payload", payload), ("labels", .array (labels.toList.map wireLabel)),
    ("hop_count", .int hops)]

/-- Something that may nest is taken in if there is room for one more, and its parts are. -/
theorem exists_nested {ε α β : Type} {room depth : Nat} {part : Except ε α} {make : α → β}
    {full : ε} {spelt : Prop} (parts : (∃ a, part = .ok a) ↔ spelt ∧ depth ≤ room - 1) :
    (∃ b, (if room = 0 then .error full else part.map make) = .ok b) ↔
      spelt ∧ depth + 1 ≤ room := by
  by_cases none : room = 0
  · rw [if_pos none]
    constructor
    · rintro ⟨_, other⟩
      cases other
    · omega
  · rw [if_neg none, Except.exists_map_eq_ok, parts]
    exact and_congr_right fun _ => by omega

mutual

theorem exists_wireIn : ∀ (room : Nat) (payload : Payload),
    (∃ json, wireIn false room payload = .ok json) ↔ Spelt payload ∧ nesting payload ≤ room
  | room, .null => ⟨fun _ => ⟨.null, Nat.zero_le _⟩, fun _ => ⟨_, rfl⟩⟩
  | room, .bool b => ⟨fun _ => ⟨.bool b, Nat.zero_le _⟩, fun _ => ⟨_, rfl⟩⟩
  | room, .int n => ⟨fun _ => ⟨.int n, Nat.zero_le _⟩, fun _ => ⟨_, rfl⟩⟩
  | room, .float x => ⟨fun _ => ⟨.float x, Nat.zero_le _⟩, fun _ => ⟨_, rfl⟩⟩
  | room, .text s => ⟨fun _ => ⟨.text s, Nat.zero_le _⟩, fun _ => ⟨_, rfl⟩⟩
  | room, .moment m => ⟨fun _ => ⟨.moment m, Nat.zero_le _⟩, fun _ => ⟨_, rfl⟩⟩
  | room, .bytes b => by
    show (∃ json, (textOfBytes false b).map Json.text = .ok json) ↔ _
    rw [Except.exists_map_eq_ok, exists_textOfBytes]
    exact ⟨fun ⟨_, spells⟩ => ⟨.bytes spells, Nat.zero_le _⟩,
      fun | ⟨.bytes spells, _⟩ => ⟨_, spells⟩⟩
  | room, .list items =>
    (exists_nested (exists_wireItems (room - 1) items)).trans
      (and_congr_left fun _ => ⟨.list, fun | .list each => each⟩)
  | room, .tuple items =>
    (exists_nested (exists_wireItems (room - 1) items)).trans
      (and_congr_left fun _ => ⟨.tuple, fun | .tuple each => each⟩)
  | room, .set items =>
    (exists_nested (exists_wireItems (room - 1) items)).trans
      (and_congr_left fun _ => ⟨.set, fun | .set each => each⟩)
  | room, .map entries =>
    (exists_nested (exists_wireEntries (room - 1) entries)).trans
      (and_congr_left fun _ => ⟨fun ⟨keys, each⟩ => .map keys each,
        fun | .map keys each => ⟨keys, each⟩⟩)
  | room, .value payload labels hops => by
    show (∃ json, (if room = 0 then .error .tooDeep else
      (wireIn false (room - 1) payload).map (labelled · labels hops)) = .ok json) ↔ _
    rw [exists_nested (exists_wireIn (room - 1) payload)]
    exact and_congr_left fun _ => ⟨fun inner => .value inner labels hops,
      fun | .value inner _ _ => inner⟩

theorem exists_wireItems : ∀ (room : Nat) (items : List Payload),
    (∃ json, wireItems false room items = .ok json) ↔
      (∀ item ∈ items, Spelt item) ∧ nestingOfItems items ≤ room
  | room, [] =>
    ⟨fun _ => ⟨fun _ inside => absurd inside List.not_mem_nil, Nat.zero_le _⟩, fun _ => ⟨[], rfl⟩⟩
  | room, item :: rest => by
    rw [wireItems, Except.exists_both_eq_ok, exists_wireIn room item, exists_wireItems room rest,
      List.forall_mem_cons, nestingOfItems, Nat.max_le]
    tauto

theorem exists_wireEntries : ∀ (room : Nat) (entries : List (Payload × Payload)),
    (∃ json, wireEntries false room entries = .ok json) ↔
      ((∀ entry ∈ entries, SpeltKey entry.1) ∧ ∀ entry ∈ entries, Spelt entry.2) ∧
        nestingOfEntries entries ≤ room
  | room, [] =>
    ⟨fun _ => ⟨⟨fun _ inside => absurd inside List.not_mem_nil,
      fun _ inside => absurd inside List.not_mem_nil⟩, Nat.zero_le _⟩, fun _ => ⟨[], rfl⟩⟩
  | room, (key, item) :: rest => by
    have parts : (∃ json, wireEntries false room ((key, item) :: rest) = .ok json) ↔
        (∃ text, wireKey key = .ok text) ∧ (∃ json, wireIn false room item = .ok json) ∧
          ∃ json, wireEntries false room rest = .ok json := by
      rw [wireEntries]
      constructor
      · rintro ⟨_, made⟩
        obtain ⟨text, named, made⟩ := Except.bind_eq_ok.mp made
        obtain ⟨json, written, made⟩ := Except.bind_eq_ok.mp made
        obtain ⟨others, all, _⟩ := Except.bind_eq_ok.mp made
        exact ⟨⟨text, named⟩, ⟨json, written⟩, others, all⟩
      · rintro ⟨⟨text, named⟩, ⟨json, written⟩, others, all⟩
        exact ⟨(text, json) :: others, Except.bind_eq_ok.mpr ⟨text, named,
          Except.bind_eq_ok.mpr ⟨json, written, Except.bind_eq_ok.mpr ⟨others, all, rfl⟩⟩⟩⟩
    rw [parts, exists_wireKey key, exists_wireIn room item, exists_wireEntries room rest,
      List.forall_mem_cons, List.forall_mem_cons, nestingOfEntries, Nat.max_le]
    tauto

end

/-- What can be taken into a record. -/
def Recordable (payload : Payload) : Prop := Spelt payload ∧ nesting payload ≤ maxDepth

theorem recorded_iff {payload : Payload} :
    (∃ json, recorded payload = .ok json) ↔ Recordable payload :=
  exists_wireIn maxDepth payload

/-! ## What is taken in -/

theorem plain_wireLabel (label : Label) : (wireLabel label).Plain := by
  have names : ["origin_id", "category", "trust_level"].Nodup := by decide
  refine .object names ?_
  intro entry inside
  simp only [List.mem_cons, List.not_mem_nil, or_false] at inside
  rcases inside with rfl | rfl | rfl
  · exact .text _
  · exact .text _
  · exact .text _

theorem plain_labelled {payload : Json} (plain : payload.Plain) (labels : LabelSet) (hops : Nat) :
    (labelled payload labels hops).Plain := by
  have names : ["payload", "labels", "hop_count"].Nodup := by decide
  refine .object names ?_
  intro entry inside
  simp only [List.mem_cons, List.not_mem_nil, or_false] at inside
  rcases inside with rfl | rfl | rfl
  · exact plain
  · refine .array fun item inside => ?_
    obtain ⟨label, _, rfl⟩ := List.mem_map.mp inside
    exact plain_wireLabel label
  · exact .int _

theorem of_nested {ε α β : Type} {room : Nat} {part : Except ε α} {make : α → β} {full : ε} {b : β}
    (taken : (if room = 0 then .error full else part.map make) = .ok b) :
    ∃ a, part = .ok a ∧ make a = b := by
  split at taken
  · cases taken
  · exact Except.map_eq_ok.mp taken

mutual

/-- What is taken into a record is plain. -/
theorem plain_of_wireIn : ∀ (room : Nat) (payload : Payload) {json : Json},
    wireIn false room payload = .ok json → json.Plain
  | _, .null, _, rfl => .null
  | _, .bool b, _, rfl => .bool b
  | _, .int n, _, rfl => .int n
  | _, .text s, _, rfl => .text s
  | _, .moment m, _, rfl => .text _
  | _, .float (.finite x), _, rfl => .float x
  | _, .float (.infinite _), _, rfl => .null
  | _, .float (.nan _), _, rfl => .null
  | _, .bytes b, json, taken => by
    obtain ⟨s, _, rfl⟩ := Except.map_eq_ok.mp (taken : (textOfBytes false b).map Json.text = _)
    exact .text s
  | room, .list items, _, taken | room, .tuple items, _, taken | room, .set items, _, taken => by
    obtain ⟨parts, all, rfl⟩ := of_nested taken
    exact .array (plain_of_wireItems (room - 1) items all)
  | room, .map entries, _, taken => by
    obtain ⟨parts, all, rfl⟩ := of_nested taken
    exact .object (Assoc.nodup_keys_ofList parts) fun entry inside =>
      plain_of_wireEntries (room - 1) entries all entry (Assoc.mem_of_mem_ofList inside)
  | room, .value payload labels hops, json, taken => by
    have nested : (if room = 0 then .error .tooDeep else
      (wireIn false (room - 1) payload).map (labelled · labels hops)) = .ok json := taken
    obtain ⟨part, inner, rfl⟩ := of_nested nested
    exact plain_labelled (plain_of_wireIn (room - 1) payload inner) labels hops

theorem plain_of_wireItems : ∀ (room : Nat) (items : List Payload) {parts : List Json},
    wireItems false room items = .ok parts → ∀ part ∈ parts, part.Plain
  | _, [], _, rfl => fun _ inside => absurd inside List.not_mem_nil
  | room, item :: rest, _, taken => by
    obtain ⟨part, others, one, all, rfl⟩ := Except.both_eq_ok.mp taken
    exact List.forall_mem_cons.mpr
      ⟨plain_of_wireIn room item one, plain_of_wireItems room rest all⟩

theorem plain_of_wireEntries : ∀ (room : Nat) (entries : List (Payload × Payload))
    {members : List (String × Json)}, wireEntries false room entries = .ok members →
      ∀ entry ∈ members, entry.2.Plain
  | _, [], _, rfl => fun _ inside => absurd inside List.not_mem_nil
  | room, (key, item) :: rest, _, taken => by
    obtain ⟨text, _, taken⟩ := Except.bind_eq_ok.mp taken
    obtain ⟨part, one, taken⟩ := Except.bind_eq_ok.mp taken
    obtain ⟨others, all, same⟩ := Except.bind_eq_ok.mp taken
    obtain rfl := Except.pure_eq_ok.mp same
    exact List.forall_mem_cons.mpr
      ⟨plain_of_wireIn room item one, plain_of_wireEntries room rest all⟩

end

end TaintFlow.Payload
