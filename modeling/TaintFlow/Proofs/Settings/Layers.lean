import TaintFlow.Settings
import TaintFlow.Proofs.Payload.Entries

/-!
# Settings laid over others

Settings that are given twice are read one by one: `read_laidOver` says that each
is read from the upper mapping if it is there, and is as in the lower one
otherwise.
-/

namespace TaintFlow.Settings

open Payload (Entries)

/-! ## One mapping over another -/

section Mappings

variable {fuel : Nat} {key : String} {value : Payload} {below above laid m : Entries}

/-- What stands at a key of one mapping over another, by what stands there in the lower and in the
upper one. -/
def overlaid (fuel : Nat) (lower : Option Payload) : Option Payload → Option Payload
  | none => lower
  | some value =>
    match lower, value with
    | some (.map below), .map above => some (.map (layOver fuel below above))
    | _, _ => some value

/-- One entry over a mapping. -/
def layOne (fuel : Nat) (m : Entries) (entry : Payload × Payload) : Entries :=
  match Entries.find? entry.1 m, entry.2 with
  | some (.map below), .map above => Entries.put entry.1 (.map (layOver fuel below above)) m
  | _, _ => Entries.put entry.1 entry.2 m

theorem layOver_eq : layOver (fuel + 1) below above = above.foldl (layOne fuel) below := rfl

theorem text?_layOne_self :
    Entries.text? key (layOne fuel m (.text key, value)) =
      overlaid fuel (Entries.text? key m) (some value) := by
  unfold layOne overlaid
  dsimp only
  rw [← Entries.text?]
  split
  · exact Payload.Entries.text?_put_self
  · exact Payload.Entries.text?_put_self

theorem text?_layOne_of_ne {k : Payload} (differs : k ≠ .text key) :
    Entries.text? key (layOne fuel m (k, value)) = Entries.text? key m := by
  unfold layOne
  split
  · exact Payload.Entries.text?_put_of_ne differs
  · exact Payload.Entries.text?_put_of_ne differs

theorem text?_layOver (distinct : Entries.Distinct above) :
    Entries.text? key (layOver (fuel + 1) below above) =
      overlaid fuel (Entries.text? key below) (Entries.text? key above) := by
  rw [layOver_eq]
  induction above generalizing below with
  | nil => rfl
  | cons entry rest ih =>
      obtain ⟨k, value⟩ := entry
      rw [List.foldl_cons, ih (List.pairwise_cons.mp distinct).2, Payload.Entries.text?_cons]
      by_cases here : k = .text key
      · subst here
        rw [distinct.text?_rest, if_pos rfl]
        exact text?_layOne_self
      · rw [if_neg here, text?_layOne_of_ne here]

/-- A mapping has what an upper one gives, and elsewhere what a lower one gives; of two mappings
at a key it has one made of both. -/
structure Over (above below laid : Entries) : Prop where
  kept : ∀ key, Entries.text? key above = none → Entries.text? key laid = Entries.text? key below
  given : ∀ key p, Entries.text? key above = some p → ∃ p', Entries.text? key laid = some p' ∧
    (p' = p ∨ ∃ m m', p = .map m ∧ p' = .map m')

theorem over_layOver (distinct : Entries.Distinct above) :
    Over above below (layOver (fuel + 1) below above) where
  kept key none := by
    rw [text?_layOver distinct, none]
    rfl
  given key p there := by
    rw [text?_layOver distinct, there]
    unfold overlaid
    dsimp only
    split
    · exact ⟨_, rfl, .inr ⟨_, _, rfl, rfl⟩⟩
    · exact ⟨_, rfl, .inl rfl⟩

theorem over_nil : Over [] below below where
  kept _ _ := rfl
  given _ _ there := by cases there

theorem over_of_nil : Over above [] above where
  kept _ none := none
  given _ p there := ⟨p, there, .inl rfl⟩

end Mappings

/-! ## Settings one by one -/

/-- A setting follows what is found for it: this is read, and without it the setting stays. -/
def Follows {α : Type} (read : Payload → Checked α) (found : Option Payload) (before after : α) :
    Prop :=
  match found with
  | none => after = before
  | some p => read p = .ok after

/-- No mapping is read as a single setting. -/
def RefusesMaps {α : Type} (read : Payload → Checked α) : Prop :=
  ∀ entries a, read (.map entries) ≠ .ok a

theorem refusesMaps_readTruth : RefusesMaps Payload.readTruth :=
  fun _ _ => Checked.issue_eq_ok.mp

theorem refusesMaps_readText : RefusesMaps Payload.readText :=
  fun _ _ => Checked.issue_eq_ok.mp

theorem refusesMaps_readSeconds : RefusesMaps Payload.readSeconds :=
  fun _ _ => Checked.issue_eq_ok.mp

theorem refusesMaps_readPath : RefusesMaps readPath :=
  fun _ _ => Checked.issue_eq_ok.mp

theorem refusesMaps_readEach {α : Type} (read : Payload → Checked α) :
    RefusesMaps (Payload.readEach read) :=
  fun _ _ => Checked.issue_eq_ok.mp

theorem RefusesMaps.optional {α : Type} {read : Payload → Checked α} (refuses : RefusesMaps read) :
    RefusesMaps (Payload.readOptional read) := by
  intro entries a same
  obtain ⟨b, same, _⟩ := Except.map_eq_ok.mp same
  exact refuses entries b same

theorem RefusesMaps.map {α β : Type} {read : Payload → Checked α} (refuses : RefusesMaps read)
    (f : α → β) : RefusesMaps fun p => (read p).map f := by
  intro entries a same
  obtain ⟨b, same, _⟩ := Except.map_eq_ok.mp same
  exact refuses entries b same

section Fields

variable {α : Type} {name : String} {usual before after : α} {read : Payload → Checked α}
  {above below laid : Entries}

theorem fieldOr_over (refuses : RefusesMaps read) (layered : Over above below laid)
    (was : Payload.fieldOr name usual read below = .ok before) :
    Payload.fieldOr name usual read laid = .ok after ↔
      Follows read (Entries.text? name above) before after := by
  unfold Payload.fieldOr at was ⊢
  cases found : Entries.text? name above with
  | none =>
      rw [layered.kept name found, was]
      exact ⟨fun same => (Except.ok.inj same).symm, fun same => congrArg _ same.symm⟩
  | some p =>
      obtain ⟨p', there, rfl | ⟨m, m', rfl, rfl⟩⟩ := layered.given name p found
      · rw [there]
        exact Checked.under_eq_ok
      · rw [there]
        exact ⟨fun same => absurd (Checked.under_eq_ok.mp same) (refuses m' after),
          fun same => absurd same (refuses m after)⟩

end Fields

/-! ## Groups of settings -/

section Groups

variable {above below laid : Entries}

theorem readHarness_eq_ok {m : Entries} {c : HarnessConfig} : HarnessConfig.read m = .ok c ↔
    Payload.fieldOr "default_timeout_s" ({} : HarnessConfig).usualTimeout
        (Payload.readOptional Payload.readSeconds) m = .ok c.usualTimeout ∧
      Payload.fieldOr "boundary_timeout_s" ({} : HarnessConfig).boundaryTimeout
        Payload.readSeconds m = .ok c.boundaryTimeout ∧
      Payload.fieldOr "verify_store_loads" ({} : HarnessConfig).verifyLoads
        Payload.readTruth m = .ok c.verifyLoads := by
  unfold HarnessConfig.read
  simp only [Checked.apply_eq_ok, Except.map_eq_ok]
  constructor
  · rintro ⟨_, _, ⟨_, _, ⟨_, first, rfl⟩, second, rfl⟩, third, rfl⟩
    exact ⟨first, second, third⟩
  · rintro ⟨first, second, third⟩
    exact ⟨_, _, ⟨_, _, ⟨_, first, rfl⟩, second, rfl⟩, third, rfl⟩

theorem readLogging_eq_ok {m : Entries} {c : LoggingSettings} : readLogging m = .ok c ↔
    Payload.fieldOr "level" ({} : LoggingSettings).level
        (fun p => (Payload.readText p).map Text.upper) m = .ok c.level ∧
      Payload.fieldOr "json_output" ({} : LoggingSettings).asJson Payload.readTruth m =
        .ok c.asJson := by
  unfold readLogging
  simp only [Checked.apply_eq_ok, Except.map_eq_ok]
  constructor
  · rintro ⟨_, _, ⟨_, first, rfl⟩, second, rfl⟩
    exact ⟨first, second⟩
  · rintro ⟨first, second⟩
    exact ⟨_, _, ⟨_, first, rfl⟩, second, rfl⟩

theorem readTelemetry_eq_ok {m : Entries} {c : TelemetrySettings} : readTelemetry m = .ok c ↔
    Payload.fieldOr "enabled" ({} : TelemetrySettings).enabled Payload.readTruth m = .ok c.enabled ∧
      Payload.fieldOr "endpoint" ({} : TelemetrySettings).endpoint Payload.readText m =
        .ok c.endpoint ∧
      Payload.fieldOr "env" ({} : TelemetrySettings).deployment Payload.readText m =
        .ok c.deployment := by
  unfold readTelemetry
  simp only [Checked.apply_eq_ok, Except.map_eq_ok]
  constructor
  · rintro ⟨_, _, ⟨_, _, ⟨_, first, rfl⟩, second, rfl⟩, third, rfl⟩
    exact ⟨first, second, third⟩
  · rintro ⟨first, second, third⟩
    exact ⟨_, _, ⟨_, _, ⟨_, first, rfl⟩, second, rfl⟩, third, rfl⟩

/-- What is found for the settings of a group, by their names. -/
abbrev Found := String → Option Payload

/-- The settings of a harness follow what is found for them. -/
structure FollowsHarness (found : Found) (before after : HarnessConfig) : Prop where
  usualTimeout : Follows (Payload.readOptional Payload.readSeconds) (found "default_timeout_s")
    before.usualTimeout after.usualTimeout
  boundaryTimeout : Follows Payload.readSeconds (found "boundary_timeout_s")
    before.boundaryTimeout after.boundaryTimeout
  verifyLoads : Follows Payload.readTruth (found "verify_store_loads")
    before.verifyLoads after.verifyLoads

/-- The settings of notices follow what is found for them. -/
structure FollowsLogging (found : Found) (before after : LoggingSettings) : Prop where
  level : Follows (fun p => (Payload.readText p).map Text.upper) (found "level")
    before.level after.level
  asJson : Follows Payload.readTruth (found "json_output") before.asJson after.asJson

/-- The settings of spans follow what is found for them. -/
structure FollowsTelemetry (found : Found) (before after : TelemetrySettings) : Prop where
  enabled : Follows Payload.readTruth (found "enabled") before.enabled after.enabled
  endpoint : Follows Payload.readText (found "endpoint") before.endpoint after.endpoint
  deployment : Follows Payload.readText (found "env") before.deployment after.deployment

/-- A group is read from one mapping over another by what the upper one has for its settings. -/
def ReadApart {α : Type} (read : Entries → Checked α) (follows : Found → α → α → Prop) : Prop :=
  ∀ above below laid before after, Over above below laid → read below = .ok before →
    (read laid = .ok after ↔ follows (fun key => Entries.text? key above) before after)

theorem readApart_harness : ReadApart HarnessConfig.read FollowsHarness := by
  intro above below laid before after layered was
  obtain ⟨first, second, third⟩ := readHarness_eq_ok.mp was
  rw [readHarness_eq_ok, fieldOr_over refusesMaps_readSeconds.optional layered first,
    fieldOr_over refusesMaps_readSeconds layered second,
    fieldOr_over refusesMaps_readTruth layered third]
  exact ⟨fun ⟨first, second, third⟩ => ⟨first, second, third⟩,
    fun ⟨first, second, third⟩ => ⟨first, second, third⟩⟩

theorem readApart_logging : ReadApart readLogging FollowsLogging := by
  intro above below laid before after layered was
  obtain ⟨first, second⟩ := readLogging_eq_ok.mp was
  rw [readLogging_eq_ok, fieldOr_over (refusesMaps_readText.map Text.upper) layered first,
    fieldOr_over refusesMaps_readTruth layered second]
  exact ⟨fun ⟨first, second⟩ => ⟨first, second⟩, fun ⟨first, second⟩ => ⟨first, second⟩⟩

theorem readApart_telemetry : ReadApart readTelemetry FollowsTelemetry := by
  intro above below laid before after layered was
  obtain ⟨first, second, third⟩ := readTelemetry_eq_ok.mp was
  rw [readTelemetry_eq_ok, fieldOr_over refusesMaps_readTruth layered first,
    fieldOr_over refusesMaps_readText layered second,
    fieldOr_over refusesMaps_readText layered third]
  exact ⟨fun ⟨first, second, third⟩ => ⟨first, second, third⟩,
    fun ⟨first, second, third⟩ => ⟨first, second, third⟩⟩

/-- Is there a mapping at a name, if there is anything? -/
def IsGroup (name : String) (m : Entries) : Prop :=
  ∀ p, Entries.text? name m = some p → ∃ entries, p = .map entries

/-- The mapping at a name; it is empty if there is none. -/
def groupAt (name : String) (m : Entries) : Entries :=
  match Entries.text? name m with
  | some (.map entries) => entries
  | _ => []

variable {α : Type} {name : String} {usual before after a : α} {read : Entries → Checked α}
  {follows : Found → α → α → Prop} {upper lower m : Entries}

theorem group_eq_ok (defaults : read [] = .ok usual) :
    Payload.fieldOr name usual (readGroup read) m = .ok a ↔
      IsGroup name m ∧ read (groupAt name m) = .ok a := by
  unfold Payload.fieldOr IsGroup groupAt
  cases Entries.text? name m with
  | none =>
      dsimp only
      rw [defaults]
      exact ⟨fun same => ⟨nofun, same⟩, And.right⟩
  | some p =>
      dsimp only
      rw [Checked.under_eq_ok]
      cases p with
      | map entries =>
          exact ⟨fun same => ⟨fun _ same => ⟨entries, (Option.some.inj same).symm⟩, same⟩, And.right⟩
      | _ =>
          refine ⟨nofun, fun ⟨isMap, _⟩ => ?_⟩
          obtain ⟨_, other⟩ := isMap _ rfl
          cases other

/-- No key comes twice in settings, and none in a group of them. -/
structure Settled (m : Entries) : Prop where
  keys : Entries.Distinct m
  groups : ∀ name entries, Entries.text? name m = some (.map entries) → Entries.Distinct entries

theorem depth_le_depthIn {entry : Payload × Payload} (inside : entry ∈ m) :
    depth entry.2 ≤ depthIn m := by
  induction m with
  | nil => cases inside
  | cons first rest ih =>
      rw [depthIn]
      obtain rfl | later := List.mem_cons.mp inside
      · exact Nat.le_max_left _ _
      · exact Nat.le_trans (ih later) (Nat.le_max_right _ _)

theorem text?_laidOver (settled : Settled upper) (lower : Entries) (key : String) :
    Entries.text? key (laidOver upper lower) =
      overlaid (depthIn upper) (Entries.text? key lower) (Entries.text? key upper) :=
  text?_layOver settled.keys

theorem isGroup_laidOver (settled : Settled upper) (group : IsGroup name lower) :
    IsGroup name (laidOver upper lower) ↔ IsGroup name upper := by
  unfold IsGroup
  rw [text?_laidOver settled]
  cases found : Entries.text? name upper with
  | none => exact ⟨fun _ => nofun, fun _ => group⟩
  | some p =>
      unfold overlaid
      dsimp only
      split
      · exact ⟨fun _ _ same => ⟨_, (Option.some.inj same).symm⟩,
          fun _ _ same => ⟨_, (Option.some.inj same).symm⟩⟩
      · exact Iff.rfl

theorem over_groupAt (settled : Settled upper) (groupUpper : IsGroup name upper)
    (groupLower : IsGroup name lower) :
    Over (groupAt name upper) (groupAt name lower) (groupAt name (laidOver upper lower)) := by
  have same := text?_laidOver settled lower name
  cases found : Entries.text? name upper with
  | none =>
      rw [found] at same
      unfold groupAt
      rw [same, found]
      exact over_nil
  | some p =>
      obtain ⟨above, rfl⟩ := groupUpper p found
      have deep : depthIn above + 1 ≤ depthIn upper :=
        depth_le_depthIn (Payload.Entries.text?_mem found)
      have fueled : depthIn upper = depthIn upper - 1 + 1 := by omega
      rw [found, fueled] at same
      unfold groupAt
      cases foundLower : Entries.text? name lower with
      | none =>
          rw [foundLower] at same
          rw [same, found]
          exact over_of_nil
      | some q =>
          obtain ⟨below, rfl⟩ := groupLower q foundLower
          rw [foundLower] at same
          rw [same, found]
          exact over_layOver (settled.groups name above found)

/-- What a group becomes when one mapping is laid over another. -/
theorem group_over (apart : ReadApart read follows) (defaults : read [] = .ok usual)
    (settled : Settled upper)
    (was : Payload.fieldOr name usual (readGroup read) lower = .ok before) :
    Payload.fieldOr name usual (readGroup read) (laidOver upper lower) = .ok after ↔
      IsGroup name upper ∧
        follows (fun key => (Payload.map upper).at? [name, key]) before after := by
  rw [group_eq_ok defaults] at was ⊢
  rw [isGroup_laidOver settled was.1]
  refine and_congr_right fun group => ?_
  rw [apart _ _ _ _ _ (over_groupAt settled group was.1) was.2]
  have same : (fun key => Entries.text? key (groupAt name upper)) =
      fun key => (Payload.map upper).at? [name, key] := by
    funext key
    rw [Payload.at?, groupAt]
    cases found : Entries.text? name upper with
    | none => rfl
    | some p =>
        obtain ⟨above, rfl⟩ := group p found
        exact (Payload.at?_key above key).symm
  rw [same]

end Groups

/-! ## All settings -/

theorem read_eq_ok {m : Entries} {s : Settings} : read m = .ok s ↔
    Payload.fieldOr "harness" {} (readGroup HarnessConfig.read) m = .ok s.harness ∧
      Payload.fieldOr "logging" {} (readGroup readLogging) m = .ok s.logging ∧
      Payload.fieldOr "telemetry" {} (readGroup readTelemetry) m = .ok s.telemetry ∧
      Payload.fieldOr "metrics" true
        (readGroup (Payload.fieldOr "enabled" true Payload.readTruth)) m = .ok s.metricsEnabled ∧
      Payload.fieldOr "ledger" none
        (readGroup (Payload.fieldOr "path" none (Payload.readOptional readPath))) m =
          .ok s.ledger ∧
      Payload.fieldOr "catalogs" [] (Payload.readEach readPath) m = .ok s.catalogs ∧
      Payload.fieldOr "include_corpus" true Payload.readTruth m = .ok s.includeCorpus := by
  unfold read
  simp only [Checked.apply_eq_ok, Except.map_eq_ok]
  constructor
  · rintro ⟨_, _, ⟨_, _, ⟨_, _, ⟨_, _, ⟨_, _, ⟨_, _, ⟨_, first, rfl⟩, second, rfl⟩, third, rfl⟩,
      fourth, rfl⟩, fifth, rfl⟩, sixth, rfl⟩, seventh, rfl⟩
    exact ⟨first, second, third, fourth, fifth, sixth, seventh⟩
  · rintro ⟨first, second, third, fourth, fifth, sixth, seventh⟩
    exact ⟨_, _, ⟨_, _, ⟨_, _, ⟨_, _, ⟨_, _, ⟨_, _, ⟨_, first, rfl⟩, second, rfl⟩, third, rfl⟩,
      fourth, rfl⟩, fifth, rfl⟩, sixth, rfl⟩, seventh, rfl⟩

/-- A group of one setting, of which one mapping is laid over another. -/
theorem single_over {α : Type} {name setting : String} {usual before after : α}
    {read : Payload → Checked α} {upper lower : Entries} (refuses : RefusesMaps read)
    (settled : Settled upper)
    (was : Payload.fieldOr name usual (readGroup (Payload.fieldOr setting usual read)) lower =
      .ok before) :
    Payload.fieldOr name usual (readGroup (Payload.fieldOr setting usual read))
        (laidOver upper lower) = .ok after ↔
      IsGroup name upper ∧ Follows read ((Payload.map upper).at? [name, setting]) before after := by
  have apart : ReadApart (Payload.fieldOr setting usual read)
      fun found => Follows read (found setting) :=
    fun _ _ _ _ _ layered was => fieldOr_over refuses layered was
  exact group_over apart rfl settled was

/-- All settings follow what is found for them at paths of keys, where groups are mappings. -/
structure FollowEach (found : List String → Option Payload) (before after : Settings) : Prop where
  groups : ∀ name ∈ ["harness", "logging", "telemetry", "metrics", "ledger"],
    ∀ p, found [name] = some p → ∃ entries, p = .map entries
  harness : FollowsHarness (fun key => found ["harness", key]) before.harness after.harness
  logging : FollowsLogging (fun key => found ["logging", key]) before.logging after.logging
  telemetry : FollowsTelemetry (fun key => found ["telemetry", key])
    before.telemetry after.telemetry
  metricsEnabled : Follows Payload.readTruth (found ["metrics", "enabled"])
    before.metricsEnabled after.metricsEnabled
  ledger : Follows (Payload.readOptional readPath) (found ["ledger", "path"])
    before.ledger after.ledger
  catalogs : Follows (Payload.readEach readPath) (found ["catalogs"]) before.catalogs after.catalogs
  includeCorpus : Follows Payload.readTruth (found ["include_corpus"])
    before.includeCorpus after.includeCorpus

/-- Settings that are laid over others follow what the upper mapping has for them. -/
theorem read_laidOver {upper lower : Entries} {before after : Settings} (settled : Settled upper)
    (was : read lower = .ok before) :
    read (laidOver upper lower) = .ok after ↔
      FollowEach (fun path => (Payload.map upper).at? path) before after := by
  obtain ⟨harness, logging, telemetry, metrics, ledger, catalogs, corpus⟩ := read_eq_ok.mp was
  have layered : Over upper lower (laidOver upper lower) := over_layOver settled.keys
  rw [read_eq_ok, group_over readApart_harness rfl settled harness,
    group_over readApart_logging rfl settled logging,
    group_over readApart_telemetry rfl settled telemetry,
    single_over refusesMaps_readTruth settled metrics,
    single_over refusesMaps_readPath.optional settled ledger,
    fieldOr_over (refusesMaps_readEach readPath) layered catalogs,
    fieldOr_over refusesMaps_readTruth layered corpus,
    ← Payload.at?_key upper "catalogs", ← Payload.at?_key upper "include_corpus"]
  unfold IsGroup
  simp only [← Payload.at?_key]
  constructor
  · rintro ⟨⟨one, harness⟩, ⟨two, logging⟩, ⟨three, telemetry⟩, ⟨four, metrics⟩, ⟨five, ledger⟩,
      catalogs, corpus⟩
    refine ⟨?_, harness, logging, telemetry, metrics, ledger, catalogs, corpus⟩
    exact List.forall_mem_cons.mpr ⟨one, List.forall_mem_cons.mpr ⟨two, List.forall_mem_cons.mpr
      ⟨three, List.forall_mem_cons.mpr ⟨four, List.forall_mem_singleton.mpr five⟩⟩⟩⟩
  · rintro ⟨groups, harness, logging, telemetry, metrics, ledger, catalogs, corpus⟩
    exact ⟨⟨groups _ (by simp), harness⟩, ⟨groups _ (by simp), logging⟩,
      ⟨groups _ (by simp), telemetry⟩, ⟨groups _ (by simp), metrics⟩,
      ⟨groups _ (by simp), ledger⟩, catalogs, corpus⟩

end TaintFlow.Settings
