import TaintFlow.Payload.Reading
import TaintFlow.Proofs.Data.Except

/-!
# The forms that readers take

Every reader of loosely typed data takes payloads of one form.  The forms are
relations between a payload and what it stands for, and say nothing of how it is
read or of what is wrong with a payload of another form.
-/

namespace TaintFlow

/-! ## Readings put together -/

namespace Checked

variable {α β : Type}

theorem issue_eq_ok {defect : Defect} {a : α} : issue defect = .ok a ↔ False := ⟨nofun, nofun⟩

theorem under_eq_ok {place : Place} {given : Checked α} {a : α} :
    given.under place = .ok a ↔ given = .ok a := by
  cases given with
  | ok b => exact Iff.rfl
  | error issues => exact ⟨nofun, nofun⟩

theorem both_eq_ok {first : Checked α} {second : Checked β} {pair : α × β} :
    both first second = .ok pair ↔ first = .ok pair.1 ∧ second = .ok pair.2 := by
  cases first with
  | error issues => cases second <;> exact ⟨nofun, nofun⟩
  | ok a =>
      cases second with
      | error issues => exact ⟨nofun, nofun⟩
      | ok b =>
          constructor
          · rintro ⟨⟩
            exact ⟨rfl, rfl⟩
          · rintro ⟨⟨⟩, ⟨⟩⟩
            rfl

theorem apply_eq_ok {f : Checked (α → β)} {given : Checked α} {b : β} :
    f.apply given = .ok b ↔ ∃ g a, f = .ok g ∧ given = .ok a ∧ g a = b := by
  unfold apply
  rw [Except.map_eq_ok]
  simp only [both_eq_ok, Prod.exists, and_assoc]

/-- All readings of a row succeed if each does. -/
theorem all_eq_ok {given : List (Checked α)} {found : List α} :
    all given = .ok found ↔ List.Forall₂ (fun one a => one = .ok a) given found := by
  induction given generalizing found with
  | nil =>
      rw [List.forall₂_nil_left_iff]
      exact ⟨fun same => (Except.ok.inj same).symm, fun same => same ▸ rfl⟩
  | cons first rest ih =>
      rw [all, Except.map_eq_ok]
      simp only [both_eq_ok, Prod.exists]
      constructor
      · rintro ⟨a, others, ⟨one, all⟩, rfl⟩
        exact .cons one (ih.mp all)
      · rintro (_ | ⟨one, all⟩)
        exact ⟨_, _, ⟨one, ih.mpr all⟩, rfl⟩

theorem all_map_eq_ok {read : α → Checked β} {items : List α} {found : List β} :
    all (items.map read) = .ok found ↔
      List.Forall₂ (fun item b => read item = .ok b) items found := by
  rw [all_eq_ok, List.forall₂_map_left_iff]

/-- The index of an item shows in the issues only. -/
theorem each_eq_ok {read : α → Checked β} {items : List α} {found : List β} :
    each read items = .ok found ↔
      List.Forall₂ (fun item b => read item = .ok b) items found := by
  unfold each
  rw [all_map_eq_ok]
  simp only [under_eq_ok]
  have shown := List.forall₂_map_left_iff (f := Prod.fst) (l := items.zipIdx) (u := found)
    (R := fun item b => read item = .ok b)
  rw [← shown, List.zipIdx_map_fst]

theorem named_eq_ok {model : String} {given : Checked α} {a : α} :
    named model given = .ok a ↔ given = .ok a := by
  cases given with
  | ok b => exact ⟨fun same => congrArg Except.ok (Except.ok.inj same),
      fun same => congrArg Except.ok (Except.ok.inj same)⟩
  | error issues => exact ⟨nofun, nofun⟩

end Checked

namespace Payload

/-! ## Texts and names -/

/-- A text, or bytes that spell it. -/
inductive IsText : Payload → String → Prop where
  | text (s : String) : IsText (.text s) s
  | bytes {b : List UInt8} {s : String} (spells : Text.Utf8.decode? b = some s) :
      IsText (.bytes b) s

/-- A text without halves of characters, or bytes that spell it. -/
inductive IsWholeText : Payload → String → Prop where
  | text {s : String} (whole : Text.hasHalf s.toList = false) : IsWholeText (.text s) s
  | bytes {b : List UInt8} {s : String} (spells : Text.Utf8.decode? b = some s) :
      IsWholeText (.bytes b) s

/-- A whole text that is not empty. -/
def IsNonempty (p : Payload) (s : String) : Prop := p.IsWholeText s ∧ s ≠ ""

/-- The name of an alternative. -/
def IsName {α : Type} [Enumeration α] (p : Payload) (a : α) : Prop :=
  p.IsWholeText (Enumeration.name a)

theorem scalarText?_eq_some {defect : Defect} {p : Payload} {chars : List Char} :
    p.scalarText? defect = .ok (some chars) ↔ p.IsWholeText (String.ofList chars) := by
  cases p with
  | text s =>
      cases half : Text.hasHalf s.toList with
      | true =>
          simp only [scalarText?, half, if_pos]
          refine ⟨nofun, fun form => ?_⟩
          cases form with
          | text whole => rw [half] at whole; cases whole
      | false =>
          simp only [scalarText?, half, Bool.false_eq_true, if_false]
          constructor
          · rintro ⟨⟩
            rw [String.ofList_toList]
            exact .text half
          · intro form
            generalize same : String.ofList chars = t at form
            cases form with
            | text whole => rw [← same, String.toList_ofList]
  | bytes b =>
      cases spelt : Text.Utf8.decode? b with
      | none =>
          simp only [scalarText?, spelt]
          refine ⟨nofun, fun form => ?_⟩
          cases form with
          | bytes spells => cases spelt.symm.trans spells
      | some t =>
          simp only [scalarText?, spelt]
          constructor
          · rintro ⟨⟩
            rw [String.ofList_toList]
            exact .bytes spelt
          · intro form
            generalize same : String.ofList chars = u at form
            cases form with
            | bytes spells =>
                obtain rfl := Option.some.inj (spelt.symm.trans spells)
                rw [← same, String.toList_ofList]
  | _ => exact ⟨nofun, nofun⟩

theorem readWholeText_eq_ok {p : Payload} {s : String} :
    readWholeText p = .ok s ↔ p.IsWholeText s := by
  unfold readWholeText
  rw [Except.bind_eq_ok]
  constructor
  · rintro ⟨_ | chars, spelt, made⟩
    · cases made
    · obtain rfl := Except.pure_eq_ok.mp made
      exact scalarText?_eq_some.mp spelt
  · intro form
    refine ⟨some s.toList, scalarText?_eq_some.mpr ?_, Except.pure_eq_ok.mpr ?_⟩
    · rwa [String.ofList_toList]
    · rw [String.ofList_toList]

theorem readText_eq_ok {p : Payload} {s : String} : readText p = .ok s ↔ p.IsText s := by
  cases p with
  | text t =>
      constructor
      · rintro ⟨⟩
        exact .text _
      · rintro ⟨⟩
        rfl
  | bytes b =>
      show readWholeText (.bytes b) = .ok s ↔ _
      rw [readWholeText_eq_ok]
      exact ⟨fun | .bytes spells => .bytes spells, fun | .bytes spells => .bytes spells⟩
  | _ => exact readWholeText_eq_ok.trans ⟨nofun, nofun⟩

theorem readNonempty_eq_ok {p : Payload} {s : String} :
    readNonempty p = .ok s ↔ p.IsNonempty s := by
  unfold readNonempty IsNonempty
  rw [Except.bind_eq_ok]
  constructor
  · rintro ⟨read, form, checked⟩
    split at checked
    · cases checked
    · rename_i some_
      obtain rfl := Except.pure_eq_ok.mp checked
      exact ⟨readWholeText_eq_ok.mp form, some_⟩
  · rintro ⟨form, some_⟩
    refine ⟨s, readWholeText_eq_ok.mpr form, ?_⟩
    rw [if_neg some_]
    rfl

theorem readName_eq_ok {α : Type} [Enumeration α] {p : Payload} {a : α} :
    readName α p = .ok a ↔ p.IsName a := by
  unfold readName IsName
  rw [Except.bind_eq_ok]
  constructor
  · rintro ⟨_ | chars, spelt, made⟩
    · cases made
    · dsimp only at made
      split at made
      · rename_i b known
        obtain rfl := Except.pure_eq_ok.mp made
        rw [← Enumeration.ofName?_eq_some_iff.mp known]
        exact scalarText?_eq_some.mp spelt
      · cases made
  · intro form
    refine ⟨some (Enumeration.name a).toList, scalarText?_eq_some.mpr ?_, ?_⟩
    · rwa [String.ofList_toList]
    · dsimp only
      rw [String.ofList_toList, Enumeration.ofName?_name]
      rfl

/-! ## Sequences and mappings -/

variable {α : Type} {read : Payload → Checked α} {form : Payload → α → Prop}

/-- A sequence of payloads: a list, a tuple or a set. -/
inductive IsItems : Payload → List Payload → Prop where
  | list (items : List Payload) : IsItems (.list items) items
  | tuple (items : List Payload) : IsItems (.tuple items) items
  | set (items : List Payload) : IsItems (.set items) items

/-- A sequence whose items have a form. -/
def IsEach (form : Payload → α → Prop) (p : Payload) (found : List α) : Prop :=
  ∃ items, p.IsItems items ∧ List.Forall₂ form items found

/-- A mapping whose keys are texts. -/
inductive IsKeyed : Payload → Assoc String Payload → Prop where
  | map {entries : Entries} {named : List (String × Payload)}
      (each : List.Forall₂ (fun entry one => entry.1.IsText one.1 ∧ entry.2 = one.2) entries named) :
      IsKeyed (.map entries) (Assoc.ofList named)

theorem readItems_eq_ok {p : Payload} {items : List Payload} :
    readItems p = .ok items ↔ p.IsItems items := by
  cases p with
  | list => exact ⟨fun | rfl => .list _, fun | .list _ => rfl⟩
  | tuple => exact ⟨fun | rfl => .tuple _, fun | .tuple _ => rfl⟩
  | set => exact ⟨fun | rfl => .set _, fun | .set _ => rfl⟩
  | _ => exact ⟨nofun, nofun⟩

theorem readEach_eq_ok (takes : ∀ p a, read p = .ok a ↔ form p a) {p : Payload} {found : List α} :
    readEach read p = .ok found ↔ p.IsEach form found := by
  unfold readEach IsEach
  rw [Except.bind_eq_ok]
  simp only [readItems_eq_ok, Checked.each_eq_ok, takes]

theorem readSome_eq_ok (takes : ∀ p a, read p = .ok a ↔ form p a) {p : Payload} {found : List α} :
    readSome read p = .ok found ↔ p.IsEach form found ∧ found ≠ [] := by
  unfold readSome
  rw [Except.bind_eq_ok]
  constructor
  · rintro ⟨items, each, checked⟩
    split at checked
    · cases checked
    · rename_i some_
      obtain rfl := Except.pure_eq_ok.mp checked
      exact ⟨(readEach_eq_ok takes).mp each, fun none => some_ (none ▸ rfl)⟩
  · rintro ⟨each, some_⟩
    refine ⟨found, (readEach_eq_ok takes).mpr each, ?_⟩
    rw [if_neg (mt List.isEmpty_iff.mp some_)]
    rfl

theorem readKeyed_eq_ok {p : Payload} {named : Assoc String Payload} :
    readKeyed p = .ok named ↔ p.IsKeyed named := by
  cases p with
  | map entries =>
      have one : ∀ (entry : Payload × Payload) (found : String × Payload),
          (((readText entry.1).under (.field "[key]")).under (placeOf entry.1)).map (·, entry.2) =
            .ok found ↔ entry.1.IsText found.1 ∧ entry.2 = found.2 := by
        intro entry found
        rw [Except.map_eq_ok]
        simp only [Checked.under_eq_ok, readText_eq_ok]
        constructor
        · rintro ⟨s, key, rfl⟩
          exact ⟨key, rfl⟩
        · rintro ⟨key, same⟩
          exact ⟨found.1, key, by rw [same]⟩
      unfold readKeyed
      rw [Except.map_eq_ok]
      simp only [Checked.all_map_eq_ok, one]
      constructor
      · rintro ⟨found, each, rfl⟩
        exact .map each
      · rintro ⟨each⟩
        exact ⟨_, each, rfl⟩
  | _ => exact ⟨nofun, nofun⟩

/-! ## Fields -/

/-- A key has the meaning of a text exactly if it is this text. -/
theorem same_text_iff {key : Payload} {s : String} : key.same (.text s) = true ↔ key = .text s := by
  cases key <;> simp [same]

namespace Entries

variable {β : Type} {key : String} {value : β} {entries : List (Payload × β)}

theorem text?_cons (entry : Payload × β) :
    text? key (entry :: entries) = if entry.1 = .text key then some entry.2 else text? key entries := by
  unfold text? find?
  by_cases here : entry.1 = .text key
  · rw [List.find?_cons_of_pos (a := entry) (same_text_iff.mpr here), if_pos here]
    rfl
  · rw [List.find?_cons_of_neg (a := entry) (mt same_text_iff.mp here), if_neg here]

/-- Leaving out a key changes nothing under another. -/
theorem text?_filter_of_ne {gone : String} (differs : key ≠ gone) :
    text? key (entries.filter fun entry => !entry.1.same (.text gone)) = text? key entries := by
  induction entries with
  | nil => rfl
  | cons entry rest ih =>
      rw [text?_cons, List.filter_cons]
      split
      · rw [text?_cons, ih]
      · rename_i dropped
        rw [Bool.not_eq_true', Bool.not_eq_false, same_text_iff] at dropped
        have other : entry.1 ≠ .text key := fun here =>
          differs (text.inj (here.symm.trans dropped))
        rw [ih, if_neg other]

end Entries

/-- A mapping with a field that has a form. -/
def HasField (name : String) (form : Payload → α → Prop) (entries : Entries) (a : α) : Prop :=
  ∃ p, Entries.text? name entries = some p ∧ form p a

/-- A mapping with a field that has a form, or without the field. -/
def HasFieldOr (name : String) (usual : α) (form : Payload → α → Prop) (entries : Entries)
    (a : α) : Prop :=
  Entries.text? name entries = none ∧ a = usual ∨ HasField name form entries a

section Same

variable {name : String} {usual a : α} {given other : Entries}

theorem HasField.of_same (same : Entries.text? name given = Entries.text? name other)
    (field : HasField name form given a) : HasField name form other a := by
  obtain ⟨p, found, holds⟩ := field
  exact ⟨p, same ▸ found, holds⟩

theorem HasFieldOr.of_same (same : Entries.text? name given = Entries.text? name other)
    (field : HasFieldOr name usual form given a) : HasFieldOr name usual form other a :=
  field.imp (And.imp_left same.symm.trans) (HasField.of_same same)

end Same

theorem field_eq_ok (takes : ∀ p a, read p = .ok a ↔ form p a) {name : String} {entries : Entries}
    {a : α} : field name read entries = .ok a ↔ HasField name form entries a := by
  unfold field HasField
  cases Entries.text? name entries with
  | none => simp [Checked.under_eq_ok, Checked.issue_eq_ok]
  | some p => simp [Checked.under_eq_ok, takes]

theorem fieldOr_eq_ok (takes : ∀ p a, read p = .ok a ↔ form p a) {name : String} {usual : α}
    {entries : Entries} {a : α} :
    fieldOr name usual read entries = .ok a ↔ HasFieldOr name usual form entries a := by
  unfold fieldOr HasFieldOr HasField
  cases Entries.text? name entries with
  | none => simp [eq_comm]
  | some p => simp [Checked.under_eq_ok, takes]

end Payload

end TaintFlow
