import TaintFlow.Payload.Shared
import TaintFlow.Proofs.Data.Assoc
import TaintFlow.Proofs.Payload.Entries

/-!
# Looking things up in payloads with shared parts

A path of keys leads from a draft through mappings, shared ones among them, to another
draft.  What it leads to, and which payload that is, is settled by those parts of
the table that the draft refers to: the main statements are `Parts.at?_eq_of_agree` and
`Shared.unfolded_eq_of_agree`.
-/

namespace TaintFlow

open Payload (Entries)

/-! ## Paths through drafts -/

namespace Parts

variable (parts : Parts)

/-- The draft that a path of keys leads to. -/
def at? : Draft → List String → Option Draft
  | d, [] => some d
  | d, key :: rest =>
    ((parts.entries? d).bind (Entries.text? key)).bind fun child => at? child rest

variable {parts} {d d' : Draft} {key : String} {path rest : List String}

theorem at?_append : parts.at? d (path ++ rest) = (parts.at? d path).bind (parts.at? · rest) := by
  induction path generalizing d with
  | nil => rfl
  | cons key path ih =>
      rw [List.cons_append, at?, at?, Option.bind_assoc ((parts.entries? d).bind _)]
      exact congrArg _ (funext fun child => ih)

theorem at?_map {entries : Draft.Entries} : parts.at? (.map entries) (key :: rest) =
    (Entries.text? key entries).bind (parts.at? · rest) := rfl

/-- Below itself a draft is what its entries are. -/
theorem at?_of_entries? {entries : Draft.Entries} (opens : parts.entries? d = some entries) :
    parts.at? d (key :: rest) = parts.at? (.map entries) (key :: rest) := by
  rw [at?, opens]
  rfl

theorem at?_of_closed (closed : parts.entries? d = none) : parts.at? d (key :: rest) = none := by
  rw [at?, closed]
  rfl

end Parts

namespace Shared

/-- The payload that a path of keys leads to. -/
def lookup (s : Shared Draft) (path : List String) : Option Payload :=
  (s.parts.at? s.body path).map fun d => (⟨d, s.parts⟩ : Shared Draft).unfolded

/-- Does a path of keys lead to a mapping? -/
def HasMapping (s : Shared Draft) (path : List String) : Prop :=
  ∃ d entries, s.parts.at? s.body path = some d ∧ s.parts.entries? d = some entries

end Shared

/-! ## Drafts that refer to few parts -/

/-- All parts that a draft refers to directly have their homes among some. -/
inductive Draft.From (homes : List String) : Draft → Prop where
  | whole (payload : Payload) : From homes (.whole payload)
  | list {items : List Draft} (each : ∀ item ∈ items, From homes item) : From homes (.list items)
  | tuple {items : List Draft} (each : ∀ item ∈ items, From homes item) : From homes (.tuple items)
  | map {entries : Draft.Entries} (each : ∀ entry ∈ entries, From homes entry.2) :
      From homes (.map entries)
  | part {anchor : Anchor} (inside : anchor.home ∈ homes) : From homes (.part anchor)

theorem Draft.From.mono {homes more : List String} (all : homes ⊆ more) {d : Draft}
    (from_ : d.From homes) : d.From more := by
  induction from_ with
  | whole payload => exact .whole payload
  | list _ ih => exact .list ih
  | tuple _ ih => exact .tuple ih
  | map _ ih => exact .map ih
  | part inside => exact .part (all inside)

namespace Draft

variable {homes : List String} {known other : Assoc Anchor Payload}

/-- Payloads of parts are known alike, if the parts have their homes among some. -/
def KnownAlike (homes : List String) (known other : Assoc Anchor Payload) : Prop :=
  ∀ anchor : Anchor, anchor.home ∈ homes → known.find? anchor = other.find? anchor

theorem fillAll_eq_of_forall {items : List Draft}
    (each : ∀ item ∈ items, item.fill known = item.fill other) :
    fillAll known items = fillAll other items := by
  induction items with
  | nil => rfl
  | cons item rest ih =>
      obtain ⟨first, others⟩ := List.forall_mem_cons.mp each
      rw [fillAll, fillAll, first, ih others]

theorem fillEntries_eq_of_forall {entries : Entries}
    (each : ∀ entry ∈ entries, entry.2.fill known = entry.2.fill other) :
    fillEntries known entries = fillEntries other entries := by
  induction entries with
  | nil => rfl
  | cons entry rest ih =>
      obtain ⟨first, others⟩ := List.forall_mem_cons.mp each
      rw [fillEntries, fillEntries, first, ih others]

/-- The payload of a draft is settled by what is known of the parts that it refers to. -/
theorem fill_eq_of_alike {d : Draft} (within : d.From homes) (alike : KnownAlike homes known other) :
    d.fill known = d.fill other := by
  induction within with
  | whole payload => rfl
  | list _ ih => rw [fill, fill, fillAll_eq_of_forall ih]
  | tuple _ ih => rw [fill, fill, fillAll_eq_of_forall ih]
  | map _ ih => rw [fill, fill, fillEntries_eq_of_forall ih]
  | part inside => exact alike _ inside

theorem KnownAlike.put {anchor : Anchor} {payload : Payload} (alike : KnownAlike homes known other) :
    KnownAlike homes (known.put anchor payload) (other.put anchor payload) := by
  intro a inside
  obtain rfl | differs := eq_or_ne a anchor
  · rw [Assoc.find?_put_self, Assoc.find?_put_self]
  · rw [Assoc.find?_put_of_ne differs, Assoc.find?_put_of_ne differs, alike a inside]

theorem KnownAlike.put_foreign {anchor : Anchor} {payload : Payload}
    (alike : KnownAlike homes known other) (foreign : anchor.home ∉ homes) :
    KnownAlike homes (known.put anchor payload) other := by
  intro a inside
  have differs : a ≠ anchor := fun same => foreign (same ▸ inside)
  rw [Assoc.find?_put_of_ne differs, alike a inside]

end Draft

namespace Parts

open Draft (KnownAlike)

variable {homes : List String} {parts others : Parts}

/-- The parts with homes among some. -/
def ofHomes (homes : List String) (parts : Parts) : Parts :=
  parts.filter fun entry => entry.1.home ∈ homes

/-- The parts with homes among some refer to no others. -/
def Closed (homes : List String) (parts : Parts) : Prop :=
  ∀ entry ∈ parts, entry.1.home ∈ homes → entry.2.From homes

theorem ofHomes_cons (entry : Anchor × Draft) : ofHomes homes (entry :: parts) =
    if entry.1.home ∈ homes then entry :: ofHomes homes parts else ofHomes homes parts := by
  unfold ofHomes
  rw [List.filter_cons]
  exact if_congr decide_eq_true_iff rfl rfl

theorem ofHomes_self (all : ∀ entry ∈ parts, entry.1.home ∈ homes) : parts.ofHomes homes = parts :=
  List.filter_eq_self.mpr fun entry inside => decide_eq_true (all entry inside)

theorem ofHomes_foreign (none : ∀ entry ∈ parts, entry.1.home ∉ homes) : parts.ofHomes homes = [] :=
  List.filter_eq_nil_iff.mpr fun entry inside => mt of_decide_eq_true (none entry inside)

theorem ofHomes_append : Parts.ofHomes homes (parts ++ others) =
    parts.ofHomes homes ++ others.ofHomes homes := List.filter_append parts others

theorem find?_ofHomes {anchor : Anchor} (inside : anchor.home ∈ homes) :
    (parts.ofHomes homes).find? anchor = parts.find? anchor := by
  induction parts with
  | nil => rfl
  | cons entry rest ih =>
      rw [ofHomes_cons, Assoc.find?]
      split
      · rw [Assoc.find?, ih]
      · rename_i foreign
        have differs : entry.1 ≠ anchor := fun same => foreign (same ▸ inside)
        rw [if_neg differs, ih]

theorem find?_eq_of_ofHomes {anchor : Anchor} (same : parts.ofHomes homes = others.ofHomes homes)
    (inside : anchor.home ∈ homes) : parts.find? anchor = others.find? anchor := by
  rw [← find?_ofHomes inside, same, find?_ofHomes inside]

theorem Closed.ofHomes (closed : parts.Closed homes)
    (same : parts.ofHomes homes = others.ofHomes homes) : others.Closed homes := by
  intro entry there inside
  have kept : entry ∈ others.ofHomes homes :=
    List.mem_filter.mpr ⟨there, decide_eq_true inside⟩
  rw [← same] at kept
  exact closed entry (List.mem_filter.mp kept).1 inside

/-! ## Paths -/

theorem entries?_eq_of_agree {d : Draft} (within : d.From homes)
    (same : parts.ofHomes homes = others.ofHomes homes) : parts.entries? d = others.entries? d := by
  cases within with
  | part inside => rw [entries?, entries?, find?_eq_of_ofHomes same inside]
  | whole payload => cases payload <;> rfl
  | _ => rfl

theorem find?_mem {anchor : Anchor} {d : Draft} (found : parts.find? anchor = some d) :
    (anchor, d) ∈ parts := by
  induction parts with
  | nil => cases found
  | cons entry rest ih =>
      rw [Assoc.find?] at found
      split at found
      · rename_i here
        cases found
        exact here ▸ List.mem_cons_self
      · exact List.mem_cons_of_mem _ (ih found)

theorem Closed.entries? (closed : parts.Closed homes) {d : Draft} (within : d.From homes)
    {entries : Draft.Entries} (opens : parts.entries? d = some entries) :
    ∀ entry ∈ entries, entry.2.From homes := by
  cases within with
  | map each =>
      cases opens
      exact each
  | part inside =>
      rw [Parts.entries?] at opens
      split at opens
      · rename_i found
        cases opens
        cases closed _ (find?_mem found) inside with
        | map each => exact each
      · cases opens
  | whole payload =>
      cases payload with
      | map entries =>
          cases opens
          rw [List.forall_mem_map]
          exact fun _ _ => .whole _
      | _ => cases opens
  | list | tuple => cases opens

/-- What a path leads to from a draft is settled by the parts with the homes of its own. -/
theorem at?_eq_of_agree {d : Draft} {path : List String} (within : d.From homes)
    (closed : parts.Closed homes) (same : parts.ofHomes homes = others.ofHomes homes) :
    parts.at? d path = others.at? d path := by
  induction path generalizing d with
  | nil => rfl
  | cons key rest ih =>
      rw [at?, at?, ← entries?_eq_of_agree within same]
      cases opens : parts.entries? d with
      | none => rfl
      | some entries =>
          show (Entries.text? key entries).bind _ = (Entries.text? key entries).bind _
          cases found : Entries.text? key entries with
          | none => rfl
          | some child =>
              exact ih (closed.entries? within opens _ (Entries.text?_mem found))

theorem Closed.at? {d d' : Draft} {path : List String} (closed : parts.Closed homes)
    (within : d.From homes) (found : parts.at? d path = some d') : d'.From homes := by
  induction path generalizing d with
  | nil =>
      cases found
      exact within
  | cons key rest ih =>
      obtain ⟨child, there, found⟩ := Option.bind_eq_some_iff.mp found
      obtain ⟨entries, opens, there⟩ := Option.bind_eq_some_iff.mp there
      exact ih (closed.entries? within opens _ (Entries.text?_mem there)) found

/-! ## Payloads -/

/-- Other parts have no bearing on a pass. -/
theorem knownAlike_pass_ofHomes {known other : Assoc Anchor Payload} (closed : parts.Closed homes)
    (alike : KnownAlike homes known other) :
    KnownAlike homes (parts.pass known) ((parts.ofHomes homes).pass other) := by
  induction parts generalizing known other with
  | nil => exact alike
  | cons entry rest ih =>
      obtain ⟨anchor, d⟩ := entry
      obtain ⟨own, closed⟩ := List.forall_mem_cons.mp closed
      rw [ofHomes_cons]
      split
      · rename_i inside
        rw [pass, List.foldl_cons, pass, List.foldl_cons]
        dsimp only
        rw [Draft.fill_eq_of_alike (own inside) alike]
        cases d.fill other with
        | none => exact ih closed alike
        | some payload => exact ih closed alike.put
      · rename_i foreign
        rw [pass, List.foldl_cons]
        dsimp only
        cases d.fill known with
        | none => exact ih closed alike
        | some payload => exact ih closed (alike.put_foreign foreign)

theorem knownAlike_pass {known other : Assoc Anchor Payload} (closed : parts.Closed homes)
    (same : parts.ofHomes homes = others.ofHomes homes) (alike : KnownAlike homes known other) :
    KnownAlike homes (parts.pass known) (others.pass other) := by
  intro anchor inside
  rw [knownAlike_pass_ofHomes closed alike anchor inside, same,
    ← knownAlike_pass_ofHomes (closed.ofHomes same) (fun _ _ => rfl) anchor inside]

theorem knownAlike_unfolded (closed : parts.Closed homes)
    (same : parts.ofHomes homes = others.ofHomes homes) :
    KnownAlike homes parts.unfolded others.unfolded := by
  have start : KnownAlike homes (parts.map fun part => (part.1, Payload.map []))
      (others.map fun part => (part.1, Payload.map [])) := by
    intro anchor inside
    rw [Assoc.find?_map fun _ : Draft => Payload.map [],
      Assoc.find?_map fun _ : Draft => Payload.map [],
      find?_eq_of_ofHomes same inside]
  unfold unfolded
  generalize depth = n
  induction n with
  | zero => exact start
  | succ n ih => exact knownAlike_pass closed same ih

end Parts

/-- The payload of a draft is settled by the parts with the homes of its own. -/
theorem Shared.unfolded_eq_of_agree {homes : List String} {parts others : Parts} {d : Draft}
    (within : d.From homes) (closed : parts.Closed homes)
    (same : parts.ofHomes homes = others.ofHomes homes) :
    (⟨d, parts⟩ : Shared Draft).unfolded = (⟨d, others⟩ : Shared Draft).unfolded := by
  have once : d.fill (parts.pass []) = d.fill (others.pass []) :=
    Draft.fill_eq_of_alike within (Parts.knownAlike_pass closed same fun _ _ => rfl)
  have deep : d.fill parts.unfolded = d.fill others.unfolded :=
    Draft.fill_eq_of_alike within (Parts.knownAlike_unfolded closed same)
  unfold unfolded payload?
  dsimp only
  rw [once, deep]

/-! ## What nothing shares -/

theorem Parts.at?_whole {parts : Parts} {p : Payload} {path : List String} :
    parts.at? (.whole p) path = (p.at? path).map .whole := by
  induction path generalizing p with
  | nil =>
      rw [Payload.at?]
      rfl
  | cons key rest ih =>
      cases p with
      | map entries =>
          rw [at?, Payload.at?, entries?, Option.bind_some, Payload.Entries.text?_map_values]
          cases Entries.text? key entries with
          | none => rfl
          | some child => exact ih
      | _ => rfl

namespace Shared

/-- All that is shared in a payload has one home. -/
structure OfHome (home : String) (s : Shared Draft) : Prop where
  body : s.body.From [home]
  homes : ∀ entry ∈ s.parts, entry.1.home = home
  parts : ∀ entry ∈ s.parts, entry.2.From [home]

theorem OfHome.closed {home : String} {s : Shared Draft} (own : s.OfHome home) :
    s.parts.Closed [home] := fun entry inside _ => own.parts entry inside

theorem OfHome.ofHomes {home : String} {s : Shared Draft} (own : s.OfHome home) :
    s.parts.ofHomes [home] = s.parts :=
  Parts.ofHomes_self fun entry inside => List.mem_singleton.mpr (own.homes entry inside)

/-- What a path leads to is the same payload in any table with the parts of its home. -/
theorem lookup_eq {home : String} {s t : Shared Draft} {path other : List String}
    (own : s.OfHome home) (same : t.parts.ofHomes [home] = s.parts)
    (leads : t.parts.at? t.body path = s.parts.at? s.body other) :
    t.lookup path = s.lookup other := by
  rw [lookup, lookup, leads]
  cases found : s.parts.at? s.body other with
  | none => rfl
  | some d =>
      exact congrArg some (unfolded_eq_of_agree (own.closed.at? own.body found) own.closed
        (own.ofHomes.trans same.symm)).symm

theorem ofHome_whole (home : String) (p : Payload) : OfHome home ⟨.whole p, []⟩ :=
  ⟨.whole p, fun _ inside => absurd inside List.not_mem_nil,
    fun _ inside => absurd inside List.not_mem_nil⟩

theorem ofHome_ofEntries (home : String) (data : Entries) : OfHome home (ofEntries data).asDraft :=
  ⟨.map (List.forall_mem_map.mpr fun _ _ => .whole _),
    fun _ inside => absurd inside List.not_mem_nil,
    fun _ inside => absurd inside List.not_mem_nil⟩

end Shared

end TaintFlow
