import Mathlib
import TaintFlow.Environment
import TaintFlow.Proofs.Yaml.Drafts

/-!
# What overrides leave behind

Variables are written into nested settings one after the other.  What a path
leads to afterwards is settled by the last variable whose own path meets it:
`Outcome.concat` is the step, and `overlay_obeys` the law for all of them.  It
needs that no variable leads through a mapping that the settings, or the value of
an earlier variable, use in several places, since such a write is seen in all of
these; `not_every_overlay_obeys` is such a case.
-/

namespace TaintFlow.Environment

open Payload (Entries)

/-! ## One write -/

/-- A mapping after a write at a path, if no shared part was written into: the value is there, there
are mappings above it, and apart from these all is as it was. -/
structure Written (parts : Parts) (value : Draft) (path : List String) (m m' : Draft.Entries) :
    Prop where
  there : parts.at? (.map m') path = some value
  above : ∀ q, q <+: path → q ≠ path → ∃ entries, parts.at? (.map m') q = some (.map entries)
  apart : ∀ q, ¬ path <+: q → ¬ q <+: path → parts.at? (.map m') q = parts.at? (.map m) q

section Writing

variable {parts : Parts} {value : Draft} {key next : String} {rest : List String}
  {m entries : Draft.Entries}

/-- Below a key stands what stands in the entries there. -/
theorem at?_below {path : List String} (some_ : path ≠ []) :
    parts.at? (.map (((Entries.text? key m).bind parts.entries?).getD [])) path =
      parts.at? (.map m) (key :: path) := by
  obtain ⟨k, path, rfl⟩ := List.exists_cons_of_ne_nil some_
  refine Eq.trans ?_ Parts.at?_map.symm
  cases Entries.text? key m with
  | none => rfl
  | some child =>
      show parts.at? (.map ((parts.entries? child).getD [])) (k :: path) = parts.at? child (k :: path)
      cases opens : parts.entries? child with
      | none => exact (Parts.at?_of_closed opens).symm
      | some entries => exact (Parts.at?_of_entries? opens).symm

theorem written_put : Written parts value [key] m (Entries.put (.text key) value m) where
  there := by
    rw [Parts.at?_map, Payload.Entries.text?_put_self]
    rfl
  above q leads differs := by
    obtain rfl : q = [] := by
      obtain _ | ⟨k, rest⟩ := q
      · rfl
      · obtain ⟨rfl, none⟩ := List.cons_prefix_cons.mp leads
        exact absurd (congrArg (k :: ·) (List.prefix_nil.mp none)) differs
    exact ⟨_, rfl⟩
  apart q down up := by
    obtain _ | ⟨k, rest⟩ := q
    · exact absurd List.nil_prefix up
    · have differs : Payload.text key ≠ .text k := by
        rintro ⟨⟩
        exact down (List.cons_prefix_cons.mpr ⟨rfl, List.nil_prefix⟩)
      rw [Parts.at?_map, Parts.at?_map, Payload.Entries.text?_put_of_ne differs]

/-- A write one level further down. -/
theorem Written.nest {path : List String}
    (inner :
      Written parts value path (((Entries.text? key m).bind parts.entries?).getD []) entries) :
    Written parts value (key :: path) m (Entries.put (.text key) (.map entries) m) where
  there := by
    rw [Parts.at?_map, Payload.Entries.text?_put_self]
    exact inner.there
  above q leads differs := by
    obtain _ | ⟨k, rest⟩ := q
    · exact ⟨_, rfl⟩
    · obtain ⟨rfl, below⟩ := List.cons_prefix_cons.mp leads
      rw [Parts.at?_map, Payload.Entries.text?_put_self]
      exact inner.above rest below fun same => differs (congrArg (k :: ·) same)
  apart q down up := by
    obtain _ | ⟨k, rest⟩ := q
    · exact absurd List.nil_prefix up
    · obtain rfl | differs := eq_or_ne k key
      · have down : ¬ path <+: rest := fun leads => down (List.cons_prefix_cons.mpr ⟨rfl, leads⟩)
        have up : ¬ rest <+: path := fun leads => up (List.cons_prefix_cons.mpr ⟨rfl, leads⟩)
        rw [Parts.at?_map, Payload.Entries.text?_put_self]
        refine (inner.apart rest down up).trans (at?_below ?_)
        rintro rfl
        exact up List.nil_prefix
      · have apart : Payload.text key ≠ .text k := fun same => differs (Payload.text.inj same).symm
        rw [Parts.at?_map, Parts.at?_map, Payload.Entries.text?_put_of_ne apart]

/-- No proper part of a path leads from a draft to a mapping that is shared. -/
def Unshared (parts : Parts) (d : Draft) (path : List String) : Prop :=
  ∀ front back anchor, path = front ++ back → back ≠ [] →
    parts.at? d front = some (.part anchor) → parts.entries? (.part anchor) = none

/-- Whether a mapping on the way is shared is settled by the parts with the homes of the draft. -/
theorem Unshared.of_agree {homes : List String} {others : Parts} {d : Draft}
    {path : List String} (unshared : Unshared parts d path) (body : d.From homes)
    (closed : parts.Closed homes) (same : parts.ofHomes homes = others.ofHomes homes) :
    Unshared others d path := by
  intro front back anchor split some_ leads
  rw [← Parts.at?_eq_of_agree body closed same] at leads
  rw [← Parts.entries?_eq_of_agree (closed.at? body leads) same]
  exact unshared front back anchor split some_ leads

/-- A write along a path on which nothing is shared changes no shared part. -/
theorem writeAt_here (unshared : Unshared parts (.map m) (key :: rest)) :
    ∃ m', writeAt parts value key rest m = .here m' ∧ Written parts value (key :: rest) m m' := by
  induction rest generalizing key m with
  | nil => exact ⟨_, rfl, written_put⟩
  | cons next rest ih =>
      have below : Unshared parts (.map (((Entries.text? key m).bind parts.entries?).getD []))
          (next :: rest) := by
        intro front back anchor split some_ leads
        obtain rfl | other := eq_or_ne front []
        · cases leads
        · rw [at?_below other] at leads
          exact unshared (key :: front) back anchor (congrArg (key :: ·) split) some_ leads
      obtain ⟨entries, made, written⟩ := ih below
      refine ⟨_, ?_, written.nest⟩
      rw [writeAt, made]
      cases child : Entries.text? key m with
      | none => rfl
      | some d =>
          rw [Option.bind_some]
          cases d with
          | part anchor =>
              have leads : parts.at? (.map m) [key] = some (.part anchor) := by
                rw [Parts.at?_map, child]
                rfl
              rw [unshared [key] (next :: rest) anchor rfl (List.cons_ne_nil _ _) leads]
          | _ => cases parts.entries? _ <;> rfl

end Writing

theorem from_put {homes : List String} {key : Payload} {d : Draft} {m : Draft.Entries}
    (given : ∀ entry ∈ m, entry.2.From homes) (own : d.From homes) :
    ∀ entry ∈ Entries.put key d m, entry.2.From homes := by
  intro entry inside
  obtain before | same := Payload.Entries.mem_put inside
  · exact given entry before
  · exact same ▸ own

/-- A write keeps to the parts that the mapping and the value refer to. -/
theorem from_writeAt {homes : List String} {parts : Parts} {value : Draft} {key : String}
    {rest : List String} {m m' : Draft.Entries} (closed : parts.Closed homes)
    (given : ∀ entry ∈ m, entry.2.From homes) (own : value.From homes)
    (made : writeAt parts value key rest m = .here m') : ∀ entry ∈ m', entry.2.From homes := by
  induction rest generalizing key m m' with
  | nil =>
      cases made
      exact from_put given own
  | cons next rest ih =>
      have below : ∀ entry ∈ ((Entries.text? key m).bind parts.entries?).getD [],
          entry.2.From homes := by
        cases child : Entries.text? key m with
        | none => exact fun _ inside => absurd inside List.not_mem_nil
        | some d =>
            show ∀ entry ∈ (parts.entries? d).getD [], entry.2.From homes
            cases opens : parts.entries? d with
            | none => exact fun _ inside => absurd inside List.not_mem_nil
            | some entries =>
                exact closed.entries? (given _ (Payload.Entries.text?_mem child)) opens
      rw [writeAt] at made
      split at made
      · cases made
      · rename_i inner _
        cases made
        exact from_put given (.map (ih below inner))
      · rename_i other _
        exact absurd made (other m')

/-! ## Writes one after the other -/

/-- What a variable asks for: its name, the path that this spells, and its value. -/
structure Write where
  name : String
  path : KeyPath
  value : Shared Draft

namespace Write

/-- The keys of the path. -/
def keys (w : Write) : List String := w.path.1 :: w.path.2

/-- The path leads to, above or below the place that another leads to. -/
def Meets (w : Write) (q : List String) : Prop := w.keys <+: q ∨ q <+: w.keys

/-- A mapping with the write made. -/
def into (m : Shared Draft.Entries) (w : Write) : Shared Draft.Entries := write w.value w.path m

/-- The last of some writes that meets a path. -/
def LastToMeet (ws : List Write) (q : List String) (w : Write) : Prop :=
  ∃ before after, ws = before ++ w :: after ∧ w.Meets q ∧ ∀ u ∈ after, ¬ u.Meets q

/-- A later write does not lead through a shared mapping of the value of an earlier one. -/
def Spares (w u : Write) : Prop :=
  ∀ rest, u.keys = w.keys ++ rest → Unshared w.value.parts w.value.body rest

variable {ws : List Write} {q : List String} {u w : Write}

theorem lastToMeet_concat :
    LastToMeet (ws ++ [u]) q w ↔ u.Meets q ∧ w = u ∨ ¬ u.Meets q ∧ LastToMeet ws q w := by
  constructor
  · rintro ⟨before, after, split, meets, none⟩
    obtain rfl | ⟨after, last, rfl⟩ := List.eq_nil_or_concat after
    · obtain ⟨rfl, same⟩ := List.append_inj' split rfl
      cases same
      exact .inl ⟨meets, rfl⟩
    · rw [List.concat_eq_append, ← List.cons_append, ← List.append_assoc] at split
      obtain ⟨rfl, same⟩ := List.append_inj' split rfl
      cases same
      rw [List.concat_eq_append] at none
      obtain ⟨rest, passes⟩ := List.forall_mem_append.mp none
      exact .inr ⟨passes _ List.mem_cons_self, before, after, rfl, meets, rest⟩
  · rintro (⟨meets, rfl⟩ | ⟨passes, before, after, rfl, meets, none⟩)
    · exact ⟨ws, [], rfl, meets, fun _ inside => absurd inside List.not_mem_nil⟩
    · refine ⟨before, after ++ [u], by simp, meets, ?_⟩
      exact List.forall_mem_append.mpr ⟨none, List.forall_mem_singleton.mpr passes⟩

theorem LastToMeet.mem (last : LastToMeet ws q w) : w ∈ ws := by
  obtain ⟨_, _, rfl, _⟩ := last
  exact List.mem_append_right _ List.mem_cons_self

theorem LastToMeet.meets (last : LastToMeet ws q w) : w.Meets q := by
  obtain ⟨_, _, _, meets, _⟩ := last
  exact meets

theorem exists_lastToMeet (ws : List Write) (q : List String) :
    (∀ w ∈ ws, ¬ w.Meets q) ∨ ∃ w, LastToMeet ws q w := by
  induction ws using List.reverseRecOn with
  | nil => exact .inl fun _ inside => absurd inside List.not_mem_nil
  | append_singleton ws u ih =>
      by_cases meets : u.Meets q
      · exact .inr ⟨u, lastToMeet_concat.mpr (.inl ⟨meets, rfl⟩)⟩
      · obtain none | ⟨w, last⟩ := ih
        · exact .inl (List.forall_mem_append.mpr ⟨none, List.forall_mem_singleton.mpr meets⟩)
        · exact .inr ⟨w, lastToMeet_concat.mpr (.inr ⟨meets, last⟩)⟩

section Parts

variable {given parts : Parts} {homes : List String}

/-- The shared parts of settings and of the values written into them. -/
structure Stocked (given : Parts) (ws : List Write) (parts : Parts) : Prop where
  homes : ∀ entry ∈ parts, entry.1.home ∈ "" :: ws.map name
  kept : parts.ofHomes [""] = given
  added : ∀ w ∈ ws, parts.ofHomes [w.name] = w.value.parts
  closed : parts.Closed ("" :: ws.map name)

theorem ofHomes_append_of_fresh (own : u.value.OfHome u.name) (fresh : u.name ∉ homes) :
    (u.value.parts ++ parts).ofHomes homes = parts.ofHomes homes := by
  rw [Parts.ofHomes_append,
    Parts.ofHomes_foreign fun entry inside => own.homes entry inside ▸ fresh,
    List.nil_append]

theorem ofHomes_append_own (own : u.value.OfHome u.name)
    (fresh : ∀ entry ∈ parts, entry.1.home ≠ u.name) :
    (u.value.parts ++ parts).ofHomes [u.name] = u.value.parts := by
  rw [Parts.ofHomes_append, own.ofHomes, Parts.ofHomes_foreign fun entry inside =>
    mt List.mem_singleton.mp (fresh entry inside), List.append_nil]

theorem homes_subset_concat : "" :: ws.map name ⊆ "" :: (ws ++ [u]).map name := by
  rw [List.map_append, ← List.cons_append]
  exact List.subset_append_left _ _

theorem home_subset_concat : [u.name] ⊆ "" :: (ws ++ [u]).map name := by
  rw [List.map_append, ← List.cons_append]
  exact List.subset_append_right _ _

theorem Stocked.concat (stocked : Stocked given ws parts) (own : u.value.OfHome u.name)
    (fresh : u.name ∉ "" :: ws.map name) : Stocked given (ws ++ [u]) (u.value.parts ++ parts) where
  homes entry inside := by
    obtain new | old := List.mem_append.mp inside
    · exact home_subset_concat (List.mem_singleton.mpr (own.homes entry new))
    · exact homes_subset_concat (stocked.homes entry old)
  kept := by
    have other : u.name ∉ [""] :=
      fun same => fresh (List.mem_singleton.mp same ▸ List.mem_cons_self)
    rw [ofHomes_append_of_fresh own other, stocked.kept]
  added := by
    refine List.forall_mem_append.mpr ⟨fun w inside => ?_, List.forall_mem_singleton.mpr ?_⟩
    · have other : u.name ∉ [w.name] := fun same =>
        fresh (List.mem_singleton.mp same ▸ List.mem_cons_of_mem _ (List.mem_map_of_mem inside))
      rw [ofHomes_append_of_fresh own other, stocked.added w inside]
    · exact ofHomes_append_own own fun entry inside same =>
        fresh (same ▸ stocked.homes entry inside)
  closed entry inside _ := by
    obtain new | old := List.mem_append.mp inside
    · exact (own.parts entry new).mono home_subset_concat
    · exact (stocked.closed entry old (stocked.homes entry old)).mono homes_subset_concat

end Parts

/-- A mapping after some writes into another: which parts there are, and which draft a path of keys
leads to. -/
structure Outcome (given : Shared Draft.Entries) (ws : List Write) (m : Shared Draft.Entries) :
    Prop where
  stocked : Stocked given.parts ws m.parts
  body : m.asDraft.body.From ("" :: ws.map name)
  untouched : ∀ q, (∀ w ∈ ws, ¬ w.Meets q) →
    m.parts.at? m.asDraft.body q = given.parts.at? given.asDraft.body q
  written : ∀ q w rest, LastToMeet ws q w → q = w.keys ++ rest →
    m.parts.at? m.asDraft.body q = w.value.parts.at? w.value.body rest
  opened : ∀ q w, LastToMeet ws q w → q <+: w.keys → q ≠ w.keys →
    ∃ entries, m.parts.at? m.asDraft.body q = some (.map entries)

variable {given m : Shared Draft.Entries}

theorem outcome_nil (own : given.asDraft.OfHome "") : Outcome given [] given where
  stocked := {
    homes := fun entry inside => List.mem_singleton.mpr (own.homes entry inside)
    kept := own.ofHomes
    added := fun _ inside => absurd inside List.not_mem_nil
    closed := own.closed }
  body := own.body
  untouched _ _ := rfl
  written := by
    rintro _ _ _ ⟨before, after, split, _⟩
    simp at split
  opened := by
    rintro _ _ ⟨before, after, split, _⟩
    simp at split

/-- A shared part that is no mapping is none in any table with the parts of its home. -/
theorem entries?_part_eq_none {home : String} {s : Shared Draft} {others : Parts}
    {path : List String} {anchor : Anchor} (own : s.OfHome home)
    (same : others.ofHomes [home] = s.parts) (leads : s.parts.at? s.body path = some (.part anchor))
    (plain : s.parts.entries? (.part anchor) = none) : others.entries? (.part anchor) = none := by
  rw [Parts.entries?_eq_of_agree (own.closed.at? own.body leads) (same.trans own.ofHomes.symm)]
  exact plain

/-- Nothing on the way of a write is shared that the input and all earlier writes spare. -/
theorem Outcome.unshared (outcome : Outcome given ws m) (own : given.asDraft.OfHome "")
    (owns : ∀ w ∈ ws, w.value.OfHome w.name)
    (passes : Unshared given.parts given.asDraft.body u.keys) (spares : ∀ w ∈ ws, w.Spares u) :
    Unshared m.parts m.asDraft.body u.keys := by
  intro front back anchor split some_ leads
  obtain none_ | ⟨w, last⟩ := exists_lastToMeet ws front
  · rw [outcome.untouched front none_] at leads
    exact entries?_part_eq_none own outcome.stocked.kept leads
      (passes front back anchor split some_ leads)
  have inside : w ∈ ws := last.mem
  by_cases down : w.keys <+: front
  · obtain ⟨rest, rfl⟩ := down
    rw [outcome.written _ w rest last rfl] at leads
    have spared : w.value.parts.entries? (.part anchor) = none :=
      spares w inside (rest ++ back) (by rw [split, List.append_assoc]) rest back anchor rfl some_
        leads
    exact entries?_part_eq_none (owns w inside) (outcome.stocked.added w inside) leads spared
  · obtain ⟨entries, opened⟩ := outcome.opened front w last (last.meets.resolve_left down) fun equal =>
      down (equal ▸ List.prefix_rfl)
    cases opened.symm.trans leads

/-- One write more. -/
theorem Outcome.concat (outcome : Outcome given ws m) (own : given.asDraft.OfHome "")
    (owns : ∀ w ∈ ws, w.value.OfHome w.name) (ownLast : u.value.OfHome u.name)
    (passes : Unshared given.parts given.asDraft.body u.keys) (spares : ∀ w ∈ ws, w.Spares u)
    (fresh : u.name ∉ "" :: ws.map name) : Outcome given (ws ++ [u]) (into m u) := by
  have stocked := outcome.stocked
  have same : m.parts.ofHomes ("" :: ws.map name) =
      Parts.ofHomes ("" :: ws.map name) (u.value.parts ++ m.parts) :=
    (ofHomes_append_of_fresh ownLast fresh).symm
  have more := stocked.concat ownLast fresh
  obtain ⟨entries, (made : writeAt _ u.value.body _ _ _ = _), written⟩ := writeAt_here
    ((outcome.unshared own owns passes spares).of_agree outcome.body stocked.closed same)
  have result : into m u = ⟨entries, u.value.parts ++ m.parts⟩ := by
    unfold into write
    dsimp only
    rw [made]
  -- What no write but the last one touches is looked up among the older parts.
  have before (q : List String) (passes : ¬ u.Meets q) :
      Parts.at? (u.value.parts ++ m.parts) (.map entries) q = m.parts.at? m.asDraft.body q := by
    obtain ⟨down, up⟩ := not_or.mp passes
    exact (written.apart q down up).trans
      (Parts.at?_eq_of_agree outcome.body stocked.closed same).symm
  have inValue (q : List String) : Parts.at? (u.value.parts ++ m.parts) u.value.body q =
      u.value.parts.at? u.value.body q := by
    have newer := more.added u (List.mem_append_right _ (List.mem_singleton_self u))
    exact (Parts.at?_eq_of_agree ownLast.body ownLast.closed (ownLast.ofHomes.trans newer.symm)).symm
  rw [result]
  refine ⟨more, ?_, fun q none_ => ?_, fun q w rest last split => ?_, fun q w last up differs => ?_⟩
  · have older : ∀ entry ∈ m.body, entry.2.From ("" :: (ws ++ [u]).map name) := by
      cases outcome.body with
      | map each => exact fun entry inside => (each entry inside).mono homes_subset_concat
    exact .map (from_writeAt more.closed older (ownLast.body.mono home_subset_concat) made)
  · obtain ⟨old, new⟩ := List.forall_mem_append.mp none_
    exact (before q (new u (List.mem_singleton_self u))).trans (outcome.untouched q old)
  · obtain ⟨_, rfl⟩ | ⟨passes, last⟩ := lastToMeet_concat.mp last
    · show Parts.at? _ (.map entries) q = _
      rw [split, Parts.at?_append, keys, written.there]
      exact inValue rest
    · exact (before q passes).trans (outcome.written q w rest last split)
  · obtain ⟨_, rfl⟩ | ⟨passes, last⟩ := lastToMeet_concat.mp last
    · exact written.above q up differs
    · obtain ⟨entries, there⟩ := outcome.opened q w last up differs
      exact ⟨entries, (before q passes).trans there⟩

/-- No write leads through a shared mapping of the settings or of the value of an earlier write. -/
structure Unaliased (given : Shared Draft.Entries) (ws : List Write) : Prop where
  input : ∀ w ∈ ws, Unshared given.parts given.asDraft.body w.keys
  values : ws.Pairwise Spares

/-- Where nothing is shared no write leads through something shared. -/
theorem unaliased_ofEntries {data : Payload.Entries} (plain : ∀ w ∈ ws, w.value.parts = []) :
    Unaliased (Shared.ofEntries data) ws where
  input _ _ _ _ _ _ _ _ := rfl
  values := by
    refine List.pairwise_iff_forall_sublist.mpr fun {w u} there rest _ => ?_
    rw [plain w (there.subset List.mem_cons_self)]
    exact fun _ _ _ _ _ _ => rfl
theorem outcome_foldl (own : given.asDraft.OfHome "") (owns : ∀ w ∈ ws, w.value.OfHome w.name)
    (unaliased : Unaliased given ws) (fresh : ("" :: ws.map name).Nodup) :
    Outcome given ws (ws.foldl into given) := by
  induction ws using List.reverseRecOn with
  | nil => exact outcome_nil own
  | append_singleton ws u ih =>
      obtain ⟨input, values⟩ := unaliased
      obtain ⟨input, inputLast⟩ := List.forall_mem_append.mp input
      obtain ⟨values, -, valuesLast⟩ := List.pairwise_append.mp values
      obtain ⟨owns, ownLast⟩ := List.forall_mem_append.mp owns
      have inside := List.mem_singleton_self u
      rw [List.map_append, ← List.cons_append] at fresh
      obtain ⟨distinct, -, apart⟩ := List.nodup_append.mp fresh
      rw [List.foldl_concat]
      exact (ih owns ⟨input, values⟩ distinct).concat own owns (ownLast u inside) (inputLast u inside)
        (fun w there => valuesLast w there u inside)
        fun there => apart _ there _ (List.mem_singleton_self u.name) rfl

/-- Lookups in settings with writes made: the last write whose path meets that of a lookup
settles it, and what no write meets is as it was. -/
structure Obeys (given : Shared Draft.Entries) (ws : List Write) (merged : Shared Draft.Entries) :
    Prop where
  untouched : ∀ q, (∀ w ∈ ws, ¬ w.Meets q) → merged.asDraft.lookup q = given.asDraft.lookup q
  written : ∀ q w rest, LastToMeet ws q w → q = w.keys ++ rest →
    merged.asDraft.lookup q = w.value.lookup rest
  opened : ∀ q w, LastToMeet ws q w → q <+: w.keys → q ≠ w.keys → merged.asDraft.HasMapping q

theorem Outcome.obeys (outcome : Outcome given ws m) (own : given.asDraft.OfHome "")
    (owns : ∀ w ∈ ws, w.value.OfHome w.name) : Obeys given ws m where
  untouched q none_ := Shared.lookup_eq own outcome.stocked.kept (outcome.untouched q none_)
  written q w rest last split := Shared.lookup_eq (owns w last.mem)
    (outcome.stocked.added w last.mem) (outcome.written q w rest last split)
  opened q w last up differs := by
    obtain ⟨entries, there⟩ := outcome.opened q w last up differs
    exact ⟨.map entries, entries, there, rfl⟩

/-! ## Permutations -/

/-- Of two writes that change places neither leads to, above or below the place of the other. -/
def Reordered (ws ws' : List Write) : Prop :=
  ∀ w u, [w, u].Sublist ws → [u, w].Sublist ws' → ¬ w.Meets u.keys

theorem reordered_of_pairwise {ws ws' : List Write}
    (apart : ws.Pairwise fun w u => ¬ w.Meets u.keys) : Reordered ws ws' :=
  fun _ _ there _ => List.pairwise_iff_forall_sublist.mp apart there

theorem sublist_pair_or {α : Type} {a b : α} {l : List α} (left : a ∈ l) (right : b ∈ l)
    (differs : a ≠ b) : [a, b].Sublist l ∨ [b, a].Sublist l := by
  obtain ⟨before, after, rfl⟩ := List.append_of_mem left
  obtain early | late := List.mem_append.mp right
  · exact .inr ((List.singleton_sublist.mpr early).append
      (List.singleton_sublist.mpr List.mem_cons_self))
  · have later : b ∈ after := (List.mem_cons.mp late).resolve_left (Ne.symm differs)
    exact .inl
      (((List.singleton_sublist.mpr later).cons_cons a).trans (List.sublist_append_right _ _))

theorem LastToMeet.sublist (last : LastToMeet ws q w) (inside : u ∈ ws) (meets : u.Meets q)
    (differs : u ≠ w) : [u, w].Sublist ws := by
  obtain ⟨before, after, rfl, -, passes⟩ := last
  obtain early | late := List.mem_append.mp inside
  · exact (List.singleton_sublist.mpr early).append (List.singleton_sublist.mpr List.mem_cons_self)
  · exact absurd meets (passes u ((List.mem_cons.mp late).resolve_left differs))

/-- Two paths that meet a third one meet, unless both lead further. -/
theorem Meets.both (one : w.Meets q) (other : u.Meets q) (apart : ¬ w.Meets u.keys) :
    (q <+: w.keys ∧ q ≠ w.keys) ∧ q <+: u.keys ∧ q ≠ u.keys := by
  have notDown : ¬ w.keys <+: q := by
    intro down
    obtain below | above := other
    · exact apart (List.prefix_or_prefix_of_prefix down below)
    · exact apart (.inl (down.trans above))
  have notDown' : ¬ u.keys <+: q := by
    intro down
    obtain below | above := one
    · exact notDown below
    · exact apart (.inr (down.trans above))
  exact ⟨⟨one.resolve_left notDown, fun same => notDown (same ▸ List.prefix_rfl)⟩,
    other.resolve_left notDown', fun same => notDown' (same ▸ List.prefix_rfl)⟩

theorem Unaliased.perm {ws' : List Write} (unaliased : Unaliased given ws) (perm : ws'.Perm ws)
    (reordered : Reordered ws ws') (distinct : ws'.Nodup) : Unaliased given ws' where
  input w inside := unaliased.input w (perm.mem_iff.mp inside)
  values := by
    refine List.pairwise_iff_forall_sublist.mpr fun {w u} there rest split => ?_
    have differs : w ≠ u := (List.pairwise_iff_forall_sublist.mp distinct) there
    have inside : ∀ v ∈ [w, u], v ∈ ws := fun v among => perm.mem_iff.mp (there.subset among)
    obtain kept | swapped := sublist_pair_or (inside w (by simp)) (inside u (by simp)) differs
    · exact List.pairwise_iff_forall_sublist.mp unaliased.values kept rest split
    · exact absurd (.inr ⟨rest, split.symm⟩) (reordered u w swapped there)

/-- Two settings in which a path leads to the same payload, or to a mapping in both. -/
def SameLookups (merged merged' : Shared Draft.Entries) : Prop :=
  ∀ q, merged'.asDraft.lookup q = merged.asDraft.lookup q ∨
    merged'.asDraft.HasMapping q ∧ merged.asDraft.HasMapping q

theorem Obeys.sameLookups {ws' : List Write} {m' : Shared Draft.Entries} (obeys : Obeys given ws m)
    (obeys' : Obeys given ws' m') (perm : ws'.Perm ws) (reordered : Reordered ws ws') :
    SameLookups m m' := by
  intro q
  obtain none_ | ⟨w, last⟩ := exists_lastToMeet ws q
  · refine .inl ((obeys'.untouched q fun w inside => ?_).trans (obeys.untouched q none_).symm)
    exact none_ w (perm.mem_iff.mp inside)
  obtain none_ | ⟨w', last'⟩ := exists_lastToMeet ws' q
  · exact absurd last.meets (none_ w (perm.mem_iff.mpr last.mem))
  obtain rfl | differs := eq_or_ne w' w
  · by_cases down : w'.keys <+: q
    · obtain ⟨rest, rfl⟩ := down
      exact .inl ((obeys'.written _ _ rest last' rfl).trans (obeys.written _ _ rest last rfl).symm)
    · have up := last.meets.resolve_left down
      have proper : q ≠ w'.keys := fun same => down (same ▸ List.prefix_rfl)
      exact .inr ⟨obeys'.opened q _ last' up proper, obeys.opened q _ last up proper⟩
  · have apart := reordered w' w (last.sublist (perm.mem_iff.mp last'.mem) last'.meets differs)
      (last'.sublist (perm.mem_iff.mpr last.mem) last.meets differs.symm)
    obtain ⟨⟨up', proper'⟩, up, proper⟩ := last'.meets.both last.meets apart
    exact .inr ⟨obeys'.opened q _ last' up' proper', obeys.opened q _ last up proper⟩

end Write

/-! ## Variables -/

open Write (into Obeys Unaliased Reordered SameLookups)

/-- What the variables of an environment ask for, if the values of all that count can be read. -/
inductive Asks : Environment → List Write → Prop
  | none : Asks [] []
  | foreign {name text : String} {env : Environment} {ws : List Write}
      (spells : pathOf? name = Option.none) (others : Asks env ws) : Asks ((name, text) :: env) ws
  | write {name text : String} {path : KeyPath} {value : Shared Draft} {env : Environment}
      {ws : List Write} (spells : pathOf? name = some path) (reads : valueOf name text = .ok value)
      (others : Asks env ws) : Asks ((name, text) :: env) (⟨name, path, value⟩ :: ws)

namespace Asks

variable {env env' : Environment} {ws : List Write}

theorem overlay (asks : Asks env ws) (m : Shared Draft.Entries) :
    env.overlay m = .ok (ws.foldl into m) := by
  induction asks generalizing m with
  | none => rfl
  | foreign spells _ ih =>
      rw [Environment.overlay, List.foldlM_cons, applyOne, spells]
      exact ih m
  | write spells reads _ ih =>
      rw [Environment.overlay, List.foldlM_cons, applyOne, spells]
      dsimp only
      rw [reads]
      exact ih _

theorem names (asks : Asks env ws) : (ws.map Write.name).Sublist (Assoc.keys env) := by
  induction asks with
  | none => exact List.Sublist.refl _
  | foreign _ _ ih => exact ih.cons _
  | write _ _ _ ih => exact ih.cons_cons _

theorem ofHome_valueOf {name text : String} {value : Shared Draft}
    (reads : valueOf name text = .ok value) : value.OfHome name := by
  unfold valueOf at reads
  obtain ⟨loaded, read, kept⟩ := Except.bind_eq_ok.mp reads
  split at kept <;> cases kept
  · exact Shared.ofHome_whole name _
  · exact Yaml.ofHome_of_loadShared read

/-- What holds of all that a single variable can ask for holds of each write. -/
theorem forall_mem {P : Write → Prop} (asks : Asks env ws)
    (each : ∀ name text path value, pathOf? name = some path → valueOf name text = .ok value →
      P ⟨name, path, value⟩) : ∀ w ∈ ws, P w := by
  induction asks with
  | none => exact fun _ inside => absurd inside List.not_mem_nil
  | foreign _ _ ih => exact ih
  | write spells reads _ ih => exact List.forall_mem_cons.mpr ⟨each _ _ _ _ spells reads, ih⟩

theorem owns (asks : Asks env ws) : ∀ w ∈ ws, w.value.OfHome w.name :=
  asks.forall_mem fun _ _ _ _ _ reads => ofHome_valueOf reads

theorem spells (asks : Asks env ws) : ∀ w ∈ ws, pathOf? w.name = some w.path :=
  asks.forall_mem fun _ _ _ _ spells _ => spells

theorem name_ne (asks : Asks env ws) : "" ∉ ws.map Write.name := by
  intro inside
  obtain ⟨w, there, same⟩ := List.mem_map.mp inside
  have spells := asks.spells w there
  rw [same] at spells
  cases spells

/-- Variables in another order ask for the same. -/
theorem perm (asks : Asks env ws) (perm : env'.Perm env) :
    ∃ ws', Asks env' ws' ∧ ws'.Perm ws := by
  induction perm generalizing ws with
  | nil =>
      cases asks
      exact ⟨[], .none, .refl _⟩
  | cons variable_ _ ih =>
      cases asks with
      | foreign spells others =>
          obtain ⟨ws', asks', perm'⟩ := ih others
          exact ⟨ws', .foreign spells asks', perm'⟩
      | write spells reads others =>
          obtain ⟨ws', asks', perm'⟩ := ih others
          exact ⟨_, .write spells reads asks', perm'.cons _⟩
  | swap =>
      cases asks with
      | foreign spells others =>
          cases others with
          | foreign spells' others => exact ⟨_, .foreign spells' (.foreign spells others), .refl _⟩
          | write spells' reads' others =>
              exact ⟨_, .write spells' reads' (.foreign spells others), .refl _⟩
      | write spells reads others =>
          cases others with
          | foreign spells' others =>
              exact ⟨_, .foreign spells' (.write spells reads others), .refl _⟩
          | write spells' reads' others =>
              exact ⟨_, .write spells' reads' (.write spells reads others), .swap _ _ _⟩
  | trans _ _ first second =>
      obtain ⟨ws', asks', perm'⟩ := second asks
      obtain ⟨ws'', asks'', perm''⟩ := first asks'
      exact ⟨ws'', asks'', perm''.trans perm'⟩

theorem obeys {given : Shared Draft.Entries} (asks : Asks env ws)
    (distinct : (Assoc.keys env).Nodup)
    (own : given.asDraft.OfHome "") (unaliased : Unaliased given ws) :
    Obeys given ws (ws.foldl into given) := by
  have fresh : ("" :: ws.map Write.name).Nodup :=
    List.nodup_cons.mpr ⟨asks.name_ne, asks.names.nodup distinct⟩
  exact (Write.outcome_foldl own asks.owns unaliased fresh).obeys own asks.owns

end Asks

/-- Settings obey the variables written into them, unless a variable leads through a shared mapping
of the settings or of the value of an earlier variable. -/
theorem overlay_obeys {env : Environment} {ws : List Write} {given : Shared Draft.Entries}
    (distinct : (Assoc.keys env).Nodup) (asks : env.Asks ws) (own : given.asDraft.OfHome "")
    (unaliased : Unaliased given ws) :
    ∃ merged, env.overlay given = .ok merged ∧ Obeys given ws merged ∧
      ∀ env', env'.Perm env → ∃ ws', Asks env' ws' ∧ (Reordered ws ws' →
        ∃ merged', overlay env' given = .ok merged' ∧ SameLookups merged merged') := by
  refine ⟨_, asks.overlay given, asks.obeys distinct own unaliased, fun env' perm => ?_⟩
  obtain ⟨ws', asks', same⟩ := asks.perm perm
  have distinct' : (Assoc.keys env').Nodup := (perm.map Prod.fst).nodup_iff.mpr distinct
  refine ⟨ws', asks', fun reordered => ⟨_, asks'.overlay given, ?_⟩⟩
  have fresh : ws'.Nodup := (asks'.names.nodup distinct').of_map Write.name
  have unaliased' := unaliased.perm same reordered fresh
  exact (asks.obeys distinct own unaliased).sameLookups (asks'.obeys distinct' own unaliased') same
    reordered

/-! ## Values of quoted and shared texts -/

theorem scalar_text (text : String) (serial : Nat) :
    Yaml.Conversion.scalar .text text serial = .ok (.text text) := rfl

/-- The value of a text whose only document is a scalar that is a text. -/
theorem valueOf_of_document {name text : String} {d : Yaml.Document} {value : Shared Draft}
    (document : Yaml.Document.ofText? text.toList = .ok (some d))
    (shared : d.toShared name = .ok value) (something : value.body ≠ .whole .null) :
    valueOf name text = .ok value := by
  have loaded : Yaml.loadShared name text.toList = .ok value := by
    unfold Yaml.loadShared
    rw [document]
    exact shared
  unfold valueOf
  rw [loaded]
  dsimp only [bind, Except.bind]
  split
  · exact absurd rfl something
  · rfl

/-- A text in single quotes is itself. -/
theorem valueOf_quoted (name : String) : valueOf name "'2'" = .ok ⟨.whole (.text "2"), []⟩ := by
  have tokens : Yaml.tokens "'2'".toList = [.scalar "2" false, .textEnd] := by cbv
  have document : Yaml.Document.ofText? "'2'".toList = .ok (some ⟨.scalar .text "2" 1, []⟩) := by
    unfold Yaml.Document.ofText?
    rw [tokens]
    rfl
  refine valueOf_of_document document ?_ (by rintro ⟨⟩)
  simp [Yaml.Document.toShared, Yaml.Node.toDraft, Yaml.Node.scalarPayload, Yaml.Node.scalar?,
    Yaml.Node.tag, Yaml.Node.isMapping, scalar_text, Except.map]

/-- Two variables below one key. -/
def siblings : Environment := [("TAINTCHAIN_A__X", "'2'"), ("TAINTCHAIN_A__Y", "'2'")]

/-- What they ask for. -/
def siblingWrites : List Write :=
  [⟨"TAINTCHAIN_A__X", ("a", ["x"]), ⟨.whole (.text "2"), []⟩⟩,
   ⟨"TAINTCHAIN_A__Y", ("a", ["y"]), ⟨.whole (.text "2"), []⟩⟩]

/-- Settings with a third value at the key. -/
def settings : Shared Draft.Entries := .ofEntries [(.text "a", .map [(.text "z", .null)])]

theorem siblings_obey : ∃ merged merged', overlay siblings settings = .ok merged ∧
    Obeys settings siblingWrites merged ∧ overlay siblings.reverse settings = .ok merged' ∧
    SameLookups merged merged' := by
  have asks : Asks siblings siblingWrites :=
    .write (by cbv) (valueOf_quoted _) (.write (by cbv) (valueOf_quoted _) .none)
  obtain ⟨merged, overlaid, obeys, permuted⟩ := overlay_obeys (by decide) asks
    (Shared.ofHome_ofEntries _ _) (Write.unaliased_ofEntries (by decide))
  obtain ⟨ws', asks', kept⟩ := permuted _ siblings.reverse_perm
  have apart : siblingWrites.Pairwise fun w u => ¬ w.Meets u.keys := by
    unfold Write.Meets
    decide
  obtain ⟨merged', overlaid', alike⟩ := kept (Write.reordered_of_pairwise apart)
  exact ⟨merged, merged', overlaid, obeys, overlaid', alike⟩

/-- A text that uses an empty mapping at two keys. -/
def aliased : String := "\x7b'x': &s \x7b\x7d, 'y': *s\x7d"

/-- Where the shared mapping stands. -/
def anchor : Anchor := ⟨"TAINTCHAIN_A", "s"⟩

theorem valueOf_aliased : valueOf "TAINTCHAIN_A" aliased =
    .ok ⟨.map [(.text "x", .part anchor), (.text "y", .part anchor)], [(anchor, .map [])]⟩ := by
  have tokens : Yaml.tokens aliased.toList = [.flowMapping, .key, .scalar "x" false, .value,
      .anchor "s", .flowMapping, .flowMappingEnd, .flowEntry, .key, .scalar "y" false, .value,
      .alias "s", .flowMappingEnd, .textEnd] := by cbv
  have document : Yaml.Document.ofText? aliased.toList = .ok (some ⟨.mapping .mapping
      [(.scalar .text "x" 1, .anchored "s" (.mapping .mapping [])),
       (.scalar .text "y" 2, .anchored "s" (.mapping .mapping []))],
      [("s", .mapping .mapping [])]⟩) := by
    unfold Yaml.Document.ofText?
    rw [tokens]
    rfl
  refine valueOf_of_document document ?_ (by rintro ⟨⟩)
  have apart : (Payload.text "x").same (.text "y") = false := by simp [Payload.same]
  simp [Yaml.Document.toShared, Yaml.Document.addPart, Yaml.Node.toDraft, Yaml.Node.gather,
    Yaml.Node.tag, Yaml.Attempt.asKey, Yaml.Attempt.both, Yaml.Node.scalarPayload, Yaml.Node.scalar?,
    scalar_text, Yaml.Node.isMapping, Payload.unhashable?, Except.map, Yaml.Gathered.toMap,
    Yaml.Gathered.all, Assoc.put, Payload.Entries.ofList, Payload.Entries.merge,
    Payload.Entries.put, apart, anchor]

/-- A write of a mapping that stands twice in its value. -/
def writeTwice : Write :=
  ⟨"TAINTCHAIN_A", ("a", []), ⟨.map [(.text "x", .part anchor), (.text "y", .part anchor)],
    [(anchor, .map [])]⟩⟩

/-- A write into this mapping. -/
def writeThrough : Write := ⟨"TAINTCHAIN_A__X__K", ("a", ["x", "k"]), ⟨.whole (.text "2"), []⟩⟩

theorem asks_writeTwice_writeThrough :
    Asks [("TAINTCHAIN_A", aliased), ("TAINTCHAIN_A__X__K", "'2'")] [writeTwice, writeThrough] :=
  .write (by cbv) valueOf_aliased (.write (by cbv) (valueOf_quoted _) .none)

theorem into_writeTwice_writeThrough : into (into ⟨[], []⟩ writeTwice) writeThrough =
    ⟨[(.text "a", writeTwice.value.body)], [(anchor, .map [(.text "k", .whole (.text "2"))])]⟩ := by
  simp [into, write, writeAt, writeTwice, writeThrough, Payload.Entries.text?_cons,
    Payload.Entries.put, Parts.entries?, Assoc.find?, Assoc.put]

theorem not_every_overlay_obeys : ¬ ∀ (env : Environment) (ws : List Write)
    (given merged : Shared Draft.Entries), (Assoc.keys env).Nodup → Asks env ws →
      given.asDraft.OfHome "" → env.overlay given = .ok merged → Obeys given ws merged := by
  intro all
  have asks := asks_writeTwice_writeThrough
  have obeys := all _ _ ⟨[], []⟩ _ (by decide) asks ⟨.map nofun, nofun, nofun⟩ (asks.overlay _)
  have last : Write.LastToMeet [writeTwice, writeThrough] ["a", "y", "k"] writeTwice :=
    ⟨[], _, rfl, .inl ⟨["y", "k"], rfl⟩,
      List.forall_mem_singleton.mpr (by unfold Write.Meets; decide)⟩
  have there := obeys.written _ _ ["y", "k"] last rfl
  have found : (into (into ⟨[], []⟩ writeTwice) writeThrough).asDraft.lookup ["a", "y", "k"] =
      some (.text "2") := by
    rw [into_writeTwice_writeThrough]
    simp [Shared.lookup, Shared.asDraft, Parts.at?, Parts.entries?, Assoc.find?,
      Payload.Entries.text?_cons, writeTwice]
    rfl
  have absent : writeTwice.value.lookup ["y", "k"] = none := by
    simp [Shared.lookup, writeTwice, Parts.at?, Parts.entries?, Assoc.find?,
      Payload.Entries.text?_cons, Payload.Entries.text?_nil]
  cases found.symm.trans (there.trans absent)

end TaintFlow.Environment
