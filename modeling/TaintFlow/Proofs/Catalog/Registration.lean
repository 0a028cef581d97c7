import TaintFlow.Proofs.Harness.Definitions

/-!
# Registering a catalog

The chains of a catalog are defined one after the other, and each is checked when
its turn comes.  Their ids are distinct, so whether one of them can be defined does
not depend on the others: it is a matter of the harness that there was before.  The
first that cannot be defined ends the registration, and the chains before it stay.
The main statement is `registerCatalog_outcome`.
-/

namespace TaintFlow

theorem Except.eq_ok_of_toOption {ε α : Type} {given : Except ε α} {a : α}
    (found : given.toOption = some a) : given = .ok a := by
  cases given with
  | error e => cases found
  | ok b => exact congrArg Except.ok (Option.some.inj found)

namespace Catalog

/-- A file with the text of a document is read as its chains. -/
theorem load_eq_ok {folder : Folder} {path : Path} {text : List Char} {loaded : Payload}
    {chains : List Chain} (there : folder.exists? path = .ok true)
    (file : folder.readText path = .ok (String.ofList text)) (yaml : Yaml.load text = .ok loaded)
    (read : ofPayload loaded = .ok chains) : load folder path = .ok chains := by
  unfold load
  rw [there, file]
  show parse (String.ofList text) path.text = _
  unfold parse
  rw [String.toList_ofList, yaml]
  exact Except.mapError_eq_ok.mpr read

/-- Ids of which none is repeated, and none has been seen, are distinct. -/
theorem nodup_of_repeatedId? {seen : List String} {chains : List Chain}
    (none : repeatedId? seen chains = none) :
    (chains.map Chain.id).Nodup ∧ ∀ c ∈ chains, c.id ∉ seen := by
  induction chains generalizing seen with
  | nil => exact ⟨.nil, fun _ inside => absurd inside List.not_mem_nil⟩
  | cons c rest ih =>
      unfold repeatedId? at none
      split at none
      · cases none
      · rename_i fresh
        obtain ⟨once, unseen⟩ := ih none
        refine ⟨List.nodup_cons.mpr ⟨fun inside => ?_, once⟩, List.forall_mem_cons.mpr
          ⟨fun inside => fresh (List.contains_iff_mem.mpr inside), fun other inside before => ?_⟩⟩
        · obtain ⟨other, inRest, same⟩ := List.mem_map.mp inside
          exact unseen other inRest (same ▸ List.mem_cons_self)
        · exact unseen other inside (List.mem_cons_of_mem _ before)

/-- The chains of a file that can be read have distinct ids. -/
theorem nodup_of_load {folder : Folder} {path : Path} {chains : List Chain}
    (loaded : load folder path = .ok chains) : (chains.map Chain.id).Nodup := by
  obtain ⟨_, _, loaded⟩ := Except.bind_eq_ok.mp loaded
  obtain ⟨_, loaded⟩ : ∃ text, parse text path.text = .ok chains := by
    split at loaded
    · obtain ⟨text, _, parsed⟩ := Except.bind_eq_ok.mp loaded
      exact ⟨text, parsed⟩
    · cases loaded
  unfold parse at loaded
  split at loaded
  · cases loaded
  · cases loaded
  · have read := Except.mapError_eq_ok.mp loaded
    unfold ofPayload at read
    split at read
    · obtain rfl := Except.ok.inj read
      exact .nil
    · split at read
      · split at read
        · cases read
        · split at read
          · cases read
          · rename_i once
            obtain rfl := Except.ok.inj read
            exact (nodup_of_repeatedId? once).1
      · cases read

end Catalog

namespace Harness

variable {h : Harness} {c : Chain} {chains : List Chain}

/-- What keeps a chain from being defined: its id is taken, or it has a flaw. -/
def vet (h : Harness) (c : Chain) : Except Fault Unit :=
  if h.chains.has c.id then .error ⟨.duplicate .chain c.id, none⟩ else c.validate h.network

/-- The harness with more chains, behind those that it has. -/
def withChains (h : Harness) (chains : List Chain) : Harness :=
  { h with chains := h.chains ++ chains.map fun c => (c.id, c) }

@[simp] theorem withChains_nil (h : Harness) : h.withChains [] = h := by
  simp [withChains]

theorem withChains_cons (h : Harness) (c : Chain) (chains : List Chain) :
    h.withChains (c :: chains) = (h.withChains [c]).withChains chains := by
  simp [withChains]

theorem has_withChains {id : String} :
    (h.withChains chains).chains.has id = true ↔
      h.chains.has id = true ∨ id ∈ chains.map Chain.id := by
  have keys : Assoc.keys (chains.map fun c => (c.id, c)) = chains.map Chain.id := by
    unfold Assoc.keys
    rw [List.map_map]
    rfl
  rw [Assoc.has_iff_mem_keys, Assoc.has_iff_mem_keys, ← keys]
  unfold withChains Assoc.keys
  rw [List.map_append, List.mem_append]

/-- Whether a chain can be defined does not depend on chains with other ids. -/
theorem vet_withChains (other : c.id ∉ chains.map Chain.id) :
    (h.withChains chains).vet c = h.vet c := by
  have same : (h.withChains chains).chains.has c.id = h.chains.has c.id := by
    rw [Bool.eq_iff_iff, has_withChains]
    exact or_iff_left other
  unfold vet
  rw [same]
  rfl

/-- A chain whose id has been taken meanwhile cannot be defined. -/
theorem vet_withChains_of_mem (taken : c.id ∈ chains.map Chain.id) :
    (h.withChains chains).vet c = .error ⟨.duplicate .chain c.id, none⟩ := by
  unfold vet
  rw [if_pos (has_withChains.mpr (.inr taken))]

/-- A chain that can be defined comes behind the others. -/
theorem addChain_eq (h : Harness) (c : Chain) :
    h.addChain c = (h.vet c).map fun _ => (c.handle, h.withChains [c]) := by
  unfold addChain vet
  cases taken : h.chains.has c.id with
  | true => rfl
  | false =>
      have absent : c.id ∉ Assoc.keys h.chains := fun inside =>
        Bool.false_ne_true (taken.symm.trans (Assoc.has_iff_mem_keys.mpr inside))
      rw [Assoc.put_of_not_mem absent]
      cases valid : c.validate h.network with
      | error fault => simp [bind, Except.bind, Except.map]
      | ok done => simp [bind, Except.bind, pure, Except.pure, Except.map, withChains]

/-- Chains with distinct ids are all defined, or those before the first that cannot be. -/
theorem addChains_cases (distinct : (chains.map Chain.id).Nodup) :
    ((∀ c ∈ chains, h.vet c = .ok ()) ∧
        h.addChains chains = (chains.map Chain.handle, h.withChains chains, none)) ∨
      ∃ kept c later fault, chains = kept ++ c :: later ∧ (∀ b ∈ kept, h.vet b = .ok ()) ∧
        h.vet c = .error fault ∧
        h.addChains chains = (kept.map Chain.handle, h.withChains kept, some fault) := by
  induction chains generalizing h with
  | nil =>
      refine .inl ⟨fun _ inside => absurd inside List.not_mem_nil, ?_⟩
      rw [withChains_nil]
      rfl
  | cons first rest ih =>
      obtain ⟨apart, distinct⟩ := List.nodup_cons.mp distinct
      have unchanged : ∀ c ∈ rest, (h.withChains [first]).vet c = h.vet c := by
        refine fun c inside => vet_withChains fun same => apart ?_
        rw [← List.mem_singleton.mp same]
        exact List.mem_map_of_mem inside
      unfold addChains
      rw [addChain_eq]
      cases vetted : h.vet first with
      | error fault =>
          refine .inr ⟨[], first, rest, fault, rfl, fun _ inside => absurd inside List.not_mem_nil,
            vetted, ?_⟩
          rw [withChains_nil]
          rfl
      | ok done =>
          rcases ih (h := h.withChains [first]) distinct with
            ⟨all, added⟩ | ⟨kept, c, later, fault, rfl, fine, refused, added⟩
          · refine .inl ⟨List.forall_mem_cons.mpr ⟨vetted, fun c inside => ?_⟩, ?_⟩
            · rw [← unchanged c inside]
              exact all c inside
            · simp only [Except.map, added, ← withChains_cons, List.map_cons]
          · refine .inr ⟨first :: kept, c, later, fault, rfl,
              List.forall_mem_cons.mpr ⟨vetted, fun b inside => ?_⟩, ?_, ?_⟩
            · rw [← unchanged b (List.mem_append_left _ inside)]
              exact fine b inside
            · rw [← unchanged c (List.mem_append_right _ List.mem_cons_self)]
              exact refused
            · simp only [Except.map, added, ← withChains_cons, List.map_cons]

/-- A file is registered if all of its chains can be defined, and otherwise the chains before the
first that cannot be are. -/
theorem registerCatalog_of_load {folder : Folder} {path : Path}
    (loaded : Catalog.load folder path = .ok chains) :
    ((∀ c ∈ chains, h.vet c = .ok ()) ∧
        h.registerCatalog folder path = (.ok (chains.map Chain.handle), h.withChains chains)) ∨
      ∃ kept c later fault, chains = kept ++ c :: later ∧ (∀ b ∈ kept, h.vet b = .ok ()) ∧
        h.vet c = .error fault ∧
        h.registerCatalog folder path = (.error (.fault fault), h.withChains kept) := by
  unfold registerCatalog
  rw [loaded]
  dsimp only
  rcases addChains_cases (h := h) (Catalog.nodup_of_load loaded) with
    ⟨all, added⟩ | ⟨kept, c, later, fault, same, fine, refused, added⟩
  · exact .inl ⟨all, by rw [added]⟩
  · exact .inr ⟨kept, c, later, fault, same, fine, refused, by rw [added]⟩

theorem registerCatalog_eq_ok_iff {folder : Folder} {path : Path}
    (loaded : Catalog.load folder path = .ok chains) :
    (h.registerCatalog folder path).1 = .ok (chains.map Chain.handle) ↔
      ∀ c ∈ chains, h.vet c = .ok () := by
  rcases registerCatalog_of_load (h := h) loaded with
    ⟨all, registered⟩ | ⟨kept, c, later, fault, rfl, _, refused, registered⟩
  · rw [registered]
    exact ⟨fun _ => all, fun _ => rfl⟩
  · rw [registered]
    refine ⟨nofun, fun all => ?_⟩
    cases refused.symm.trans (all c (List.mem_append_right _ List.mem_cons_self))

/-- **A catalog is registered up to the first chain that cannot be defined.**  Either there is a
handle for each chain of the file, in its order, and exactly these chains have come in.  Or the
registration fails: with a file that cannot be read nothing has changed, and otherwise exactly the
chains before the one that fails have come in.  After a failure a file can be registered exactly if
each of its chains could have been defined before and none has the id of a chain that has come in. -/
theorem registerCatalog_outcome (h : Harness) (folder : Folder) (path : Path) :
    (∃ chains, Catalog.load folder path = .ok chains ∧ (∀ c ∈ chains, h.vet c = .ok ()) ∧
        h.registerCatalog folder path = (.ok (chains.map Chain.handle), h.withChains chains)) ∨
      ∃ failure kept, h.registerCatalog folder path = (.error failure, h.withChains kept) ∧
        (Catalog.load folder path = .error failure ∧ kept = [] ∨
          ∃ c later fault, Catalog.load folder path = .ok (kept ++ c :: later) ∧
            (∀ b ∈ kept, h.vet b = .ok ()) ∧ h.vet c = .error fault ∧ failure = .fault fault) ∧
        ∀ folder' path' chains, Catalog.load folder' path' = .ok chains →
          (((h.withChains kept).registerCatalog folder' path').1 = .ok (chains.map Chain.handle) ↔
            ∀ c ∈ chains, h.vet c = .ok () ∧ c.id ∉ kept.map Chain.id) := by
  have again : ∀ kept folder' path' chains, Catalog.load folder' path' = .ok chains →
      (((h.withChains kept).registerCatalog folder' path').1 = .ok (chains.map Chain.handle) ↔
        ∀ c ∈ chains, h.vet c = .ok () ∧ c.id ∉ kept.map Chain.id) := by
    intro kept folder' path' chains loaded
    rw [registerCatalog_eq_ok_iff loaded]
    refine forall₂_congr fun c _ => ?_
    by_cases taken : c.id ∈ kept.map Chain.id
    · rw [vet_withChains_of_mem taken]
      exact ⟨nofun, fun both => absurd taken both.2⟩
    · rw [vet_withChains taken]
      exact ⟨fun fine => ⟨fine, taken⟩, And.left⟩
  cases loaded : Catalog.load folder path with
  | error failure =>
      refine .inr ⟨failure, [], ?_, .inl ⟨rfl, rfl⟩, again []⟩
      unfold registerCatalog
      rw [loaded, withChains_nil]
  | ok chains =>
      rcases registerCatalog_of_load (h := h) loaded with
        ⟨all, registered⟩ | ⟨kept, c, later, fault, rfl, fine, refused, registered⟩
      · exact .inl ⟨chains, rfl, all, registered⟩
      · exact .inr ⟨.fault fault, kept, registered,
          .inr ⟨c, later, fault, rfl, fine, refused, rfl⟩, again kept⟩

/-- A source, a sink, and nothing defined. -/
def undefined : Harness := { network := Run.shortcut }

/-- A catalog whose second chain has nothing to hand to its sink. -/
def halfGood : List Char :=
  ["\"chains\":\n",
   "- \"id\": \"a\"\n",
   "  \"expected_category\": \"command\"\n",
   "  \"steps\":\n",
   "  - \"kind\": \"source\"\n",
   "    \"source_id\": \"form\"\n",
   "  - \"kind\": \"sink\"\n",
   "    \"sink_id\": \"shell\"\n",
   "- \"id\": \"b\"\n",
   "  \"expected_category\": \"command\"\n",
   "  \"steps\":\n",
   "  - \"kind\": \"sink\"\n",
   "    \"sink_id\": \"shell\"\n"].flatMap String.toList

/-- The folder that holds this catalog. -/
def halfGoodFolder : Folder := Folder.ofTexts [("c.yaml", String.ofList halfGood)]

/-- The chains of this catalog. -/
def halfGoodChains : List Chain :=
  [{ Run.direct with id := "a" },
   { id := "b", expected := .command, steps := [.sink "shell"], steps_ne := nofun }]

theorem load_halfGood : Catalog.load halfGoodFolder (Path.ofText "c.yaml") = .ok halfGoodChains := by
  have there : halfGoodFolder.exists? (Path.ofText "c.yaml") = .ok true := rfl
  have same : Folder.unixLines halfGood = halfGood := by decide +kernel
  have file : halfGoodFolder.readText (Path.ofText "c.yaml") = .ok (String.ofList halfGood) := by
    show Except.ok (String.ofList (Folder.unixLines (String.ofList halfGood).toList)) = _
    rw [String.toList_ofList, same]
  have read : ((Yaml.load halfGood).toOption.bind fun loaded =>
      (Catalog.ofPayload loaded).toOption) = some halfGoodChains := by decide +kernel
  obtain ⟨loaded, yaml, chains⟩ := Option.bind_eq_some_iff.mp read
  exact Catalog.load_eq_ok there file (Except.eq_ok_of_toOption yaml)
    (Except.eq_ok_of_toOption chains)

/-- The first chain of this catalog stays defined although the registration fails. -/
theorem halfGood_not_atomic :
    ¬ ∀ (h : Harness) (folder : Folder) (path : Path),
      (∃ chains, Catalog.load folder path = .ok chains ∧
        h.registerCatalog folder path = (.ok (chains.map Chain.handle), h.withChains chains)) ∨
      ∃ failure, (h.registerCatalog folder path).1 = .error failure ∧
        (h.registerCatalog folder path).2.chains = h.chains := by
  intro atomic
  have first : undefined.vet { Run.direct with id := "a" } = .ok () := rfl
  have second : undefined.vet
      { id := "b", expected := .command, steps := [.sink "shell"], steps_ne := nofun } =
        .error (.flawed "b" (.startsWith .sink) (some 0)) := rfl
  rcases registerCatalog_of_load (h := undefined) load_halfGood with
    ⟨all, _⟩ | ⟨kept, c, later, fault, split, _, refused, registered⟩
  · cases second.symm.trans (all _ (List.mem_cons_of_mem _ List.mem_cons_self))
  · rcases atomic undefined halfGoodFolder (Path.ofText "c.yaml") with
      ⟨chains, _, done⟩ | ⟨_, _, unchanged⟩
    · cases registered.symm.trans done
    · rw [registered] at unchanged
      cases kept with
      | nil =>
          obtain rfl : { Run.direct with id := "a" } = c := (List.cons.inj split).1
          cases first.symm.trans refused
      | cons b more => cases unchanged

end Harness

end TaintFlow
