import TaintFlow.Proofs.Json.Fidelity
import TaintFlow.Relay.Builtin

/-!
# Payloads that JSON writes exactly

Some payloads have no place in JSON, and a payload that has one of them anywhere
inside is refused: `inexact?_eq_none_iff`.  Any other is written as JSON, and
`reread_toJson` says what is read in its text: the payload itself, unless a text or a
key in it has the halves of a character side by side, which come back joined.
-/

namespace TaintFlow.Payload

open Number Text

/-! ## What stands in a payload -/

/-- A payload stands in itself, in a list and in a mapping that hold it, and in what they stand
in. -/
inductive Within : Payload → Payload → Prop where
  | self (p : Payload) : Within p p
  | item {part item : Payload} {items : List Payload} (inside : item ∈ items)
      (deeper : Within part item) : Within part (.list items)
  | entry {part : Payload} {entry : Payload × Payload} {entries : Entries}
      (inside : entry ∈ entries) (deeper : Within part entry.2) : Within part (.map entries)

/-- The payload has something of a kind in it. -/
def Has (kind : Payload → Prop) (p : Payload) : Prop := ∃ part, part.Within p ∧ kind part

variable {kind : Payload → Prop}

/-- A list has in it what its items have, if it is not of the kind itself. -/
theorem has_list {items : List Payload} :
    Has kind (.list items) ↔ kind (.list items) ∨ ∃ item ∈ items, Has kind item := by
  constructor
  · rintro ⟨part, _ | ⟨inside, deeper⟩, holds⟩
    · exact .inl holds
    · exact .inr ⟨_, inside, part, deeper, holds⟩
  · rintro (holds | ⟨item, inside, part, deeper, holds⟩)
    · exact ⟨_, .self _, holds⟩
    · exact ⟨part, .item inside deeper, holds⟩

/-- A mapping has in it what its values have, if it is not of the kind itself. -/
theorem has_map {entries : Entries} :
    Has kind (.map entries) ↔ kind (.map entries) ∨ ∃ entry ∈ entries, Has kind entry.2 := by
  constructor
  · rintro ⟨part, _ | _ | ⟨inside, deeper⟩, holds⟩
    · exact .inl holds
    · exact .inr ⟨_, inside, part, deeper, holds⟩
  · rintro (holds | ⟨entry, inside, part, deeper, holds⟩)
    · exact ⟨_, .self _, holds⟩
    · exact ⟨part, .entry inside deeper, holds⟩

/-- What is neither a list nor a mapping has nothing else in it. -/
theorem has_leaf {p : Payload} (list : ∀ items, p ≠ .list items) (map : ∀ entries, p ≠ .map entries) :
    Has kind p ↔ kind p := by
  refine ⟨?_, fun holds => ⟨p, .self p, holds⟩⟩
  rintro ⟨part, within, holds⟩
  cases within with
  | self => exact holds
  | item => exact absurd rfl (list _)
  | entry => exact absurd rfl (map _)

/-- Has JSON no place for the payload itself?  It has none for tuples, bytes, sets, moments and
labelled values, and none for mappings with a key that is no text. -/
inductive Foreign : Payload → Prop where
  | bytes (b : List UInt8) : Foreign (.bytes b)
  | tuple (items : List Payload) : Foreign (.tuple items)
  | set (items : List Payload) : Foreign (.set items)
  | moment (m : Moment) : Foreign (.moment m)
  | value (payload : Payload) (labels : LabelSet) (hops : Nat) : Foreign (.value payload labels hops)
  | key {entries : Entries} {entry : Payload × Payload} (inside : entry ∈ entries)
      (other : ∀ s, entry.1 ≠ .text s) : Foreign (.map entries)

/-- The payload is built of nothing, truth values, numbers, texts, lists and mappings with texts as
keys. -/
inductive Exact : Payload → Prop where
  | null : Exact .null
  | bool (b : Bool) : Exact (.bool b)
  | int (n : Int) : Exact (.int n)
  | float (x : Binary64) : Exact (.float x)
  | text (s : String) : Exact (.text s)
  | list {items : List Payload} (each : ∀ item ∈ items, Exact item) : Exact (.list items)
  | map {entries : Entries} (keys : ∀ entry ∈ entries, ∃ s, entry.1 = .text s)
      (each : ∀ entry ∈ entries, Exact entry.2) : Exact (.map entries)

theorem Exact.not_has_foreign {p : Payload} (exact : p.Exact) : ¬ p.Has Foreign := by
  induction exact with
  | null | bool | int | float | text =>
      rw [has_leaf (by nofun) (by nofun)]
      exact nofun
  | list each ih =>
      intro has
      rcases has_list.mp has with foreign | ⟨item, inside, has⟩
      · cases foreign
      · exact ih item inside has
  | map keys each ih =>
      intro has
      rcases has_map.mp has with foreign | ⟨entry, inside, has⟩
      · cases foreign with
        | key inside other =>
            obtain ⟨s, named⟩ := keys _ inside
            exact other s named
      · exact ih entry inside has

/-! ## What is refused -/

mutual

/-- What is not refused is exact. -/
theorem exact_of_fine (operator : String) :
    ∀ p : Payload, inexact? operator p = none → p.Exact
  | .null, _ => .null
  | .bool b, _ => .bool b
  | .int n, _ => .int n
  | .float x, _ => .float x
  | .text s, _ => .text s
  | .list items, fine => .list (exact_of_fineIn operator items fine)
  | .map entries, fine =>
    have parts := exact_of_fineEntries operator entries fine
    .map (fun entry inside => (parts entry inside).1) fun entry inside => (parts entry inside).2
  | .bytes _, refused | .tuple _, refused | .set _, refused | .moment _, refused
  | .value .., refused => nomatch refused

theorem exact_of_fineIn (operator : String) :
    ∀ items : List Payload, inexactIn? operator items = none → ∀ item ∈ items, Exact item
  | [], _ => fun _ inside => absurd inside List.not_mem_nil
  | first :: rest, fine => by
    rw [inexactIn?] at fine
    split at fine
    · cases fine
    · rename_i firstFine
      exact List.forall_mem_cons.mpr
        ⟨exact_of_fine operator first firstFine, exact_of_fineIn operator rest fine⟩

theorem exact_of_fineEntries (operator : String) :
    ∀ entries : List (Payload × Payload), inexactEntry? operator entries = none →
      ∀ entry ∈ entries, (∃ s, entry.1 = .text s) ∧ Exact entry.2
  | [], _ => fun _ inside => absurd inside List.not_mem_nil
  | (key, item) :: rest, fine => by
    cases key with
    | text s =>
        rw [ inexactEntry?] at fine
        split at fine
        · cases fine
        · rename_i itemFine
          exact List.forall_mem_cons.mpr
            ⟨⟨⟨s, rfl⟩, exact_of_fine operator item itemFine⟩,
              exact_of_fineEntries operator rest fine⟩
    | _ => cases fine

end

mutual

/-- What is refused has something in it that JSON has no place for. -/
theorem has_foreign_of_refused (operator : String) {mishap : Mishap} :
    ∀ p : Payload, inexact? operator p = some mishap → p.Has Foreign
  | .bytes b, _ => ⟨_, .self _, .bytes b⟩
  | .tuple items, _ => ⟨_, .self _, .tuple items⟩
  | .set items, _ => ⟨_, .self _, .set items⟩
  | .moment m, _ => ⟨_, .self _, .moment m⟩
  | .value payload labels hops, _ => ⟨_, .self _, .value payload labels hops⟩
  | .list items, refused => has_list.mpr (.inr (has_foreign_of_refusedIn operator items refused))
  | .map entries, refused =>
    match has_foreign_of_refusedEntries operator entries refused with
    | .inl ⟨_, inside, other⟩ => has_map.mpr (.inl (.key inside other))
    | .inr has => has_map.mpr (.inr has)
  | .null, fine | .bool _, fine | .int _, fine | .float _, fine | .text _, fine => nomatch fine

theorem has_foreign_of_refusedIn (operator : String) {mishap : Mishap} :
    ∀ items : List Payload, inexactIn? operator items = some mishap →
      ∃ item ∈ items, Has Foreign item
  | [], fine => nomatch fine
  | first :: rest, refused => by
    rw [inexactIn?] at refused
    split at refused
    · rename_i firstRefused
      exact ⟨first, List.mem_cons_self, has_foreign_of_refused operator first firstRefused⟩
    · obtain ⟨item, inside, has⟩ := has_foreign_of_refusedIn operator rest refused
      exact ⟨item, List.mem_cons_of_mem _ inside, has⟩

theorem has_foreign_of_refusedEntries (operator : String) {mishap : Mishap} :
    ∀ entries : List (Payload × Payload), inexactEntry? operator entries = some mishap →
      (∃ entry ∈ entries, ∀ s, entry.1 ≠ .text s) ∨ ∃ entry ∈ entries, Has Foreign entry.2
  | [], fine => nomatch fine
  | (key, item) :: rest, refused => by
    cases key with
    | text s =>
        rw [ inexactEntry?] at refused
        split at refused
        · rename_i itemRefused
          exact .inr ⟨_, List.mem_cons_self, has_foreign_of_refused operator item itemRefused⟩
        · rcases has_foreign_of_refusedEntries operator rest refused with
            ⟨entry, inside, other⟩ | ⟨entry, inside, has⟩
          · exact .inl ⟨entry, List.mem_cons_of_mem _ inside, other⟩
          · exact .inr ⟨entry, List.mem_cons_of_mem _ inside, has⟩
    | _ => exact .inl ⟨_, List.mem_cons_self, nofun⟩

end

/-- A payload is refused exactly if it has something in it that JSON has no place for. -/
theorem inexact?_eq_none_iff (operator : String) {p : Payload} :
    inexact? operator p = none ↔ ¬ p.Has Foreign := by
  refine ⟨fun fine => (exact_of_fine operator p fine).not_has_foreign, fun none_ => ?_⟩
  cases refused : inexact? operator p with
  | none => rfl
  | some mishap => exact absurd (has_foreign_of_refused operator p refused) none_

/-! ## What is read back -/

theorem areWritable_iff {items : List Payload} :
    areWritable items = true ↔ ∀ item ∈ items, item.isWritable = true := by
  induction items with
  | nil => exact ⟨fun _ _ inside => absurd inside List.not_mem_nil, fun _ => rfl⟩
  | cons first rest ih => rw [areWritable, Bool.and_eq_true, ih, List.forall_mem_cons]

theorem value_isWritable {entries : Entries} (all : entriesAreWritable entries = true) :
    ∀ entry ∈ entries, entry.2.isWritable = true := by
  induction entries with
  | nil => exact fun _ inside => absurd inside List.not_mem_nil
  | cons first rest ih =>
      rw [entriesAreWritable, Bool.and_eq_true, Bool.and_eq_true] at all
      exact List.forall_mem_cons.mpr ⟨all.1.2, ih all.2⟩

mutual

/-- The payload with the marks gone that tell numbers apart that are none. -/
def unmarked : Payload → Payload
  | .float (.nan _) => .float .nan
  | .list items => .list (unmarkedItems items)
  | .map entries => .map (unmarkedValues entries)
  | other => other

/-- The items of a list without marks. -/
def unmarkedItems : List Payload → List Payload
  | [] => []
  | item :: rest => unmarked item :: unmarkedItems rest

/-- The entries of a mapping, their values without marks. -/
def unmarkedValues : List (Payload × Payload) → List (Payload × Payload)
  | [] => []
  | (key, item) :: rest => (key, unmarked item) :: unmarkedValues rest

end

/-- Is this a text in which the halves of a character stand side by side, or a mapping with such a
text as a key? -/
def Split : Payload → Prop
  | .text s => isJoined s.toList = false
  | .map entries => ∃ s, .text s ∈ Assoc.keys entries ∧ isJoined s.toList = false
  | _ => False

/-- Is this a mapping that has one key twice? -/
def RepeatsKey : Payload → Prop
  | .map entries => ¬ (Assoc.keys entries).Nodup
  | _ => False

theorem not_has_split_list {items : List Payload} :
    ¬ Has Split (.list items) ↔ ∀ item ∈ items, ¬ item.Has Split := by
  rw [has_list, not_or, not_exists]
  constructor
  · exact fun ⟨_, each⟩ item inside has => each item ⟨inside, has⟩
  · exact fun each => ⟨id, fun item ⟨inside, has⟩ => each item inside has⟩

theorem not_has_split_map {entries : Entries} :
    ¬ Has Split (.map entries) ↔ ∀ entry ∈ entries,
      (∀ s, entry.1 = .text s → isJoined s.toList = true) ∧ ¬ entry.2.Has Split := by
  rw [has_map, not_or, not_exists]
  constructor
  · rintro ⟨keys, each⟩ entry inside
    refine ⟨fun s named => ?_, fun has => each _ ⟨inside, has⟩⟩
    exact Bool.of_not_eq_false fun apart =>
      keys ⟨s, named ▸ List.mem_map_of_mem inside, apart⟩
  · rintro each
    refine ⟨?_, fun entry ⟨inside, has⟩ => (each entry inside).2 has⟩
    rintro ⟨s, key, apart⟩
    obtain ⟨entry, inside, named⟩ := List.mem_map.mp key
    rw [(each entry inside).1 s named] at apart
    cases apart

/-- A text is read back as it is if it has no halves side by side. -/
theorem text_rejoin_iff {s : String} :
    Payload.text (String.ofList (rejoin s.toList)) = .text s ↔ isJoined s.toList = true := by
  rw [Payload.text.injEq, ofList_rejoin_eq_self_iff]

/-- A payload as it is written, and what is read in its text: it is the payload again, but for
marks, unless halves stand side by side. -/
structure Rereads (p : Payload) (json back : Json) : Prop where
  written : p.toJson? = some json
  read : json.reread = some back
  same : ofJson back = p.unmarked ↔ ¬ p.Has Split

/-- A payload with nothing else in it is read back as it is, unless it is a text. -/
theorem Rereads.of_leaf {p : Payload} {json back : Json} (list : ∀ items, p ≠ .list items)
    (map : ∀ entries, p ≠ .map entries) (whole : ¬ p.Split) (written : p.toJson? = some json)
    (read : json.reread = some back) (same : ofJson back = p.unmarked) : Rereads p json back :=
  ⟨written, read, fun _ => mt (has_leaf list map).mp whole, fun _ => same⟩

/-- The items of a list are read back if each is. -/
theorem rereads_items {items : List Payload} (each : ∀ item ∈ items, ∃ json back, Rereads item json back) :
    ∃ jsons backs, toJson?.itemsToJson? items = some jsons ∧ Json.rereadItems jsons = some backs ∧
      (ofJson.ofItems backs = unmarkedItems items ↔ ∀ item ∈ items, ¬ item.Has Split) := by
  induction items with
  | nil => exact ⟨[], [], rfl, rfl, fun _ _ inside => absurd inside List.not_mem_nil, fun _ => rfl⟩
  | cons first rest ih =>
      obtain ⟨⟨json, back, written, read, same⟩, others⟩ := List.forall_mem_cons.mp each
      obtain ⟨jsons, backs, written', read', same'⟩ := ih others
      refine ⟨json :: jsons, back :: backs, ?_, ?_, ?_⟩
      · rw [toJson?.itemsToJson?, written, written']
      · rw [Json.rereadItems, read, read']
        rfl
      · rw [ofJson.ofItems, unmarkedItems, List.cons.injEq, same, same', List.forall_mem_cons]

/-- The entries of a mapping are read back if each value is, and each key is that has no halves side
by side. -/
theorem rereads_entries {entries : Entries} (keys : ∀ entry ∈ entries, ∃ s, entry.1 = .text s)
    (each : ∀ entry ∈ entries, ∃ json back, Rereads entry.2 json back) :
    ∃ members backs, toJson?.entriesToJson? entries = some members ∧
      Json.rereadMembers members = some backs ∧ backs.length = entries.length ∧
        (ofJson.ofMembers backs = unmarkedValues entries ↔ ∀ entry ∈ entries,
          (∀ s, entry.1 = .text s → isJoined s.toList = true) ∧ ¬ entry.2.Has Split) := by
  induction entries with
  | nil =>
      exact ⟨[], [], rfl, rfl, rfl, fun _ _ inside => absurd inside List.not_mem_nil, fun _ => rfl⟩
  | cons first rest ih =>
      obtain ⟨key, item⟩ := first
      obtain ⟨⟨s, rfl⟩, otherKeys⟩ := List.forall_mem_cons.mp keys
      obtain ⟨⟨json, back, written, read, same⟩, others⟩ := List.forall_mem_cons.mp each
      obtain ⟨members, backs, written', read', length, same'⟩ := ih otherKeys others
      refine ⟨(s, json) :: members, (String.ofList (rejoin s.toList), back) :: backs, ?_, ?_, ?_, ?_⟩
      · rw [toJson?.entriesToJson?, written, written']
        rfl
      · rw [Json.rereadMembers, read, read']
        rfl
      · rw [List.length_cons, List.length_cons, length]
      · have named : Payload.text (String.ofList (rejoin s.toList)) = .text s ↔
            ∀ t, Payload.text s = .text t → isJoined t.toList = true := by
          rw [text_rejoin_iff]
          exact ⟨fun joined t same => Payload.text.inj same ▸ joined, fun all => all s rfl⟩
        rw [ofJson.ofMembers, unmarkedValues, List.cons.injEq, Prod.mk.injEq, same, same', named,
          List.forall_mem_cons]

theorem keys_ofMembers (members : List (String × Json)) :
    Assoc.keys (ofJson.ofMembers members) = (Assoc.keys members).map .text := by
  induction members with
  | nil => rfl
  | cons first rest ih => exact congrArg (Payload.text first.1 :: ·) ih

theorem keys_unmarkedValues (entries : Entries) :
    Assoc.keys (unmarkedValues entries) = Assoc.keys entries := by
  induction entries with
  | nil => rfl
  | cons first rest ih => exact congrArg (first.1 :: ·) ih

/-- Members that are as many as the entries of a mapping without a repeated key are read as these
entries only if none of them is lost. -/
theorem ofMembers_ofList_iff {entries : Entries} {members : List (String × Json)}
    (once : (Assoc.keys entries).Nodup) (length : members.length = entries.length) :
    ofJson.ofMembers (Assoc.ofList members) = unmarkedValues entries ↔
      ofJson.ofMembers members = unmarkedValues entries := by
  constructor
  · intro same
    have keys := congrArg Assoc.keys same
    rw [keys_ofMembers, keys_unmarkedValues] at keys
    have lengths := congrArg List.length keys
    simp only [Assoc.keys, List.length_map] at lengths
    rwa [Assoc.ofList_of_length (lengths.trans length.symm)] at same
  · intro same
    have keys := congrArg Assoc.keys same
    rw [keys_ofMembers, keys_unmarkedValues] at keys
    rw [Assoc.ofList_self (List.Nodup.of_map _ (keys ▸ once)), same]

/-- Every exact payload without repeated keys whose numbers are not too long is written and read
back. -/
theorem exists_rereads {p : Payload} (exact : p.Exact) (writable : p.isWritable = true)
    (once : ¬ p.Has RepeatsKey) : ∃ json back, Rereads p json back := by
  induction exact with
  | null => exact ⟨_, _, .of_leaf nofun nofun id rfl rfl rfl⟩
  | bool b => exact ⟨_, _, .of_leaf nofun nofun id rfl rfl rfl⟩
  | int n => exact ⟨_, _, .of_leaf nofun nofun id rfl (Json.ofNumberText?_int writable) rfl⟩
  | float x =>
      cases x with
      | finite x => exact ⟨_, _, .of_leaf nofun nofun id rfl (Json.ofNumberText?_finite x) rfl⟩
      | infinite negative => exact ⟨_, _, .of_leaf nofun nofun id rfl rfl rfl⟩
      | nan mark => exact ⟨_, _, .of_leaf nofun nofun id rfl rfl rfl⟩
  | text s =>
      have whole : ¬ Has Split (.text s) ↔ isJoined s.toList = true := by
        rw [has_leaf (by nofun) (by nofun)]
        exact Bool.not_eq_false _ ▸ Iff.rfl
      exact ⟨_, _, rfl, rfl, text_rejoin_iff.trans whole.symm⟩
  | @list items each ih =>
      have writables := areWritable_iff.mp writable
      obtain ⟨jsons, backs, written, read, same⟩ := rereads_items fun item inside =>
        ih item inside (writables item inside) fun has => once (has_list.mpr (.inr ⟨item, inside, has⟩))
      refine ⟨.array jsons, .array backs, ?_, ?_, ?_⟩
      · rw [toJson?, written]
        rfl
      · rw [Json.reread, read]
        rfl
      · rw [ofJson, unmarked, Payload.list.injEq, same, not_has_split_list]
  | @map entries keys each ih =>
      have writables := value_isWritable writable
      obtain ⟨members, backs, written, read, length, same⟩ := rereads_entries keys fun entry inside =>
        ih entry inside (writables entry inside)
          fun has => once (has_map.mpr (.inr ⟨entry, inside, has⟩))
      have distinct : (Assoc.keys entries).Nodup :=
        Classical.not_not.mp fun twice => once ⟨_, .self _, twice⟩
      refine ⟨.object members, .object (Assoc.ofList backs), ?_, ?_, ?_⟩
      · rw [toJson?, written]
        rfl
      · rw [Json.reread, read]
        rfl
      · rw [ofJson, unmarked, Payload.map.injEq, ofMembers_ofList_iff distinct length, same,
          not_has_split_map]

end TaintFlow.Payload
