import TaintFlow.Proofs.Payload.Plain
import TaintFlow.Proofs.Settings.Escape
import TaintFlow.Proofs.Settings.Layers
import TaintFlow.Proofs.Settings.Override
import TaintFlow.Proofs.Text.Case

/-!
# Settings of an empty file

An empty file leaves all settings to the environment, but not as they are read
from the environment alone: the value of a variable is then read as a document
first.
-/

namespace TaintFlow.Environment

open Payload (Entries)
open Write (into)

/-! ## Names -/

theorem mem_of_mem_splitPath {c : Char} {row : List Char} (inside : c ∈ (splitPath row).1) :
    c ∈ row := by
  induction row using splitPath.induct with
  | case1 => exact inside
  | case2 rest ih => exact absurd inside List.not_mem_nil
  | case3 c rest other first more split ih =>
      rw [splitPath] at inside
      · obtain rfl | later := List.mem_cons.mp inside
        · exact List.mem_cons_self
        · exact List.mem_cons_of_mem _ (ih later)
      · exact other

theorem mem_of_mem_keysOf {c : Char} {row : List Char} (inside : c ∈ (keysOf row).1.toList) :
    c ∈ row := by
  have same : (keysOf row).1.toList = (splitPath row).1 := String.toList_ofList
  exact mem_of_mem_splitPath (same ▸ inside)

/-- The first key that the name of a variable spells does not change in lower case, if that is
plain. -/
theorem lower_key {name : String} {path : KeyPath} (spells : pathOf? name = some path)
    (plain : ∀ c ∈ (Text.lower path.1).toList, Text.IsPlain c) : Text.lower path.1 = path.1 := by
  refine Text.lower_eq_self (fun c inside => ?_) plain
  unfold pathOf? at spells
  split at spells
  · obtain rfl := Option.some.inj spells
    exact Text.not_turns_of_mem_lower (mem_of_mem_keysOf inside)
  · cases spells

/-! ## Keys of settings with overrides -/

section Writing

variable {parts : Parts} {value : Draft} {key : String} {rest path : List String}
  {m m' : Draft.Entries}

/-- The entries that a write changes, of the mapping or of a part. -/
def Change.entries : Change → Draft.Entries
  | .here entries => entries
  | .inPart _ entries => entries

theorem keys_writeAt (made : writeAt parts value key rest m = .here m') {k : Payload}
    (inside : k ∈ m'.map Prod.fst) : k ∈ m.map Prod.fst ∨ k = .text key := by
  cases rest with
  | nil =>
      cases made
      exact Payload.Entries.mem_keys_put inside
  | cons next rest =>
      rw [writeAt] at made
      split at made
      · cases made
      · cases made
        exact Payload.Entries.mem_keys_put inside
      · rename_i other _
        exact absurd made (other m')

theorem distinct_nil : (Draft.map []).Distinct :=
  .map Payload.Entries.distinct_nil fun _ inside => absurd inside List.not_mem_nil

theorem distinct_put {k : Payload} {d : Draft} (distinct : (Draft.map m).Distinct)
    (own : d.Distinct) : (Draft.map (Entries.put k d m)).Distinct := by
  cases distinct with
  | map keys each =>
      refine .map keys.put fun entry inside => ?_
      obtain before | same := Payload.Entries.mem_put inside
      · exact each entry before
      · exact same ▸ own

theorem distinct_of_entries? {d : Draft} {entries : Draft.Entries}
    (all : ∀ part ∈ parts, part.2.Distinct) (distinct : d.Distinct)
    (opens : parts.entries? d = some entries) : (Draft.map entries).Distinct := by
  cases distinct with
  | map keys each =>
      cases opens
      exact .map keys each
  | whole other =>
      rename_i p
      cases p with
      | map below => exact absurd rfl (other below)
      | _ => cases opens
  | list | tuple => cases opens
  | part =>
      rw [Parts.entries?] at opens
      split at opens
      · rename_i found
        cases opens
        exact all _ (Parts.find?_mem found)
      · cases opens

theorem distinct_writeAt (all : ∀ part ∈ parts, part.2.Distinct)
    (distinct : (Draft.map m).Distinct) (own : value.Distinct) :
    (Draft.map (writeAt parts value key rest m).entries).Distinct := by
  induction rest generalizing key m with
  | nil => exact distinct_put distinct own
  | cons next rest ih =>
      have below : (Draft.map (((Entries.text? key m).bind parts.entries?).getD [])).Distinct := by
        cases child : Entries.text? key m with
        | none => exact distinct_nil
        | some d =>
            rw [Option.bind_some]
            cases opens : parts.entries? d with
            | none => exact distinct_nil
            | some entries =>
                cases distinct with
                | map _ each =>
                    have inside := Payload.Entries.text?_mem child
                    exact distinct_of_entries? all (each _ inside) opens
      have inner : (Draft.map (writeAt parts value next rest
          (((Entries.text? key m).bind parts.entries?).getD [])).entries).Distinct := ih below
      rw [writeAt]
      split
      · rename_i made _ _
        rwa [made] at inner
      · rename_i made _
        rw [made] at inner
        exact distinct_put distinct inner
      · exact inner

end Writing

/-- A mapping after some writes: no key comes twice in it, in its parts or inside of them, and its
own keys are the first ones of the paths. -/
structure Neat (ws : List Write) (m : Shared Draft.Entries) : Prop where
  body : m.asDraft.body.Distinct
  parts : ∀ part ∈ m.parts, part.2.Distinct
  keys : ∀ key ∈ m.body.map Prod.fst, ∃ w ∈ ws, key = .text w.path.1

namespace Neat

variable {ws : List Write} {m : Shared Draft.Entries} {u : Write}

theorem nil : Neat [] ⟨[], []⟩ where
  body := distinct_nil
  parts _ inside := absurd inside List.not_mem_nil
  keys _ inside := absurd inside List.not_mem_nil

theorem concat (neat : Neat ws m) (body : u.value.body.Distinct)
    (parts : ∀ part ∈ u.value.parts, part.2.Distinct) : Neat (ws ++ [u]) (into m u) := by
  have all : ∀ part ∈ u.value.parts ++ m.parts, part.2.Distinct :=
    List.forall_mem_append.mpr ⟨parts, neat.parts⟩
  have entries : (Draft.map (writeAt (u.value.parts ++ m.parts) u.value.body u.path.1 u.path.2
      m.body).entries).Distinct := distinct_writeAt all neat.body body
  have older : ∀ key ∈ m.body.map Prod.fst, ∃ w ∈ ws ++ [u], key = .text w.path.1 :=
    fun key inside => by
      obtain ⟨w, there, same⟩ := neat.keys key inside
      exact ⟨w, List.mem_append_left _ there, same⟩
  unfold into write
  dsimp only
  split
  · rename_i made
    rw [made] at entries
    refine ⟨entries, all, fun key inside => ?_⟩
    obtain before | rfl := keys_writeAt made inside
    · exact older key before
    · exact ⟨u, List.mem_append_right _ (List.mem_singleton_self u), rfl⟩
  · rename_i made
    rw [made] at entries
    refine ⟨neat.body, fun part inside => ?_, older⟩
    obtain rfl | before := Assoc.mem_of_mem_put inside
    · exact entries
    · exact all part before

theorem foldl (body : ∀ w ∈ ws, w.value.body.Distinct)
    (parts : ∀ w ∈ ws, ∀ part ∈ w.value.parts, part.2.Distinct) :
    Neat ws (ws.foldl into ⟨[], []⟩) := by
  induction ws using List.reverseRecOn with
  | nil => exact nil
  | append_singleton ws u ih =>
      obtain ⟨body, bodyLast⟩ := List.forall_mem_append.mp body
      obtain ⟨parts, partsLast⟩ := List.forall_mem_append.mp parts
      rw [List.foldl_concat]
      exact (ih body parts).concat (bodyLast u (List.mem_singleton_self u))
        (partsLast u (List.mem_singleton_self u))

theorem settled (neat : Neat ws m) : Settings.Settled m.entries := by
  have tidy := Shared.tidy_entries neat.body neat.parts
  cases tidy with
  | map keys each =>
      refine ⟨keys, fun name entries there => ?_⟩
      have inner := each _ (Payload.Entries.text?_mem there)
      cases inner with
      | map keys _ => exact keys
      | single other => exact absurd rfl (other entries)
  | single other => exact absurd rfl (other _)

end Neat

theorem distinct_valueOf {name text : String} {value : Shared Draft}
    (reads : valueOf name text = .ok value) :
    value.body.Distinct ∧ ∀ part ∈ value.parts, part.2.Distinct := by
  unfold valueOf at reads
  obtain ⟨loaded, read, kept⟩ := Except.bind_eq_ok.mp reads
  split at kept <;> cases kept
  · exact ⟨.whole nofun, fun _ inside => absurd inside List.not_mem_nil⟩
  · obtain ⟨body, parts⟩ := Yaml.holds_of_loadShared (Yaml.kept_distinct name) read
    exact ⟨body, fun part inside => (parts part inside).2⟩

theorem Asks.neat {env : Environment} {ws : List Write} (asks : Asks env ws) :
    Neat ws (ws.foldl into ⟨[], []⟩) :=
  .foldl (asks.forall_mem fun _ _ _ _ _ reads => (distinct_valueOf reads).1)
    (asks.forall_mem fun _ _ _ _ _ reads => (distinct_valueOf reads).2)

/-- Overrides that can be written are those of variables that can be read. -/
theorem exists_asks {env : Environment} {m merged : Shared Draft.Entries}
    (made : env.overlay m = .ok merged) : ∃ ws, Asks env ws := by
  induction env generalizing m with
  | nil => exact ⟨[], .none⟩
  | cons variable_ rest ih =>
      obtain ⟨name, text⟩ := variable_
      rw [overlay, List.foldlM_cons, applyOne] at made
      cases spells : pathOf? name with
      | none =>
          rw [spells] at made
          obtain ⟨ws, asks⟩ := ih made
          exact ⟨ws, .foreign spells asks⟩
      | some path =>
          rw [spells] at made
          dsimp only at made
          cases reads : valueOf name text with
          | error why =>
              rw [reads] at made
              cases made
          | ok value =>
              rw [reads] at made
              obtain ⟨ws, asks⟩ := ih made
              exact ⟨_, .write spells reads asks⟩

/-! ## Writes that share nothing -/

section Plain

variable {ws : List Write} {m : Shared Draft.Entries} {u : Write}

theorem unshared_of_plain {parts : Parts} {d : Draft} {path : List String} (plain : d.From []) :
    Unshared parts d path := by
  intro front back anchor _ _ leads
  cases plain.at? leads with
  | part inside => exact absurd inside List.not_mem_nil

theorem unaliased_of_plain (plain : ∀ w ∈ ws, w.value.body.From []) :
    Write.Unaliased ⟨[], []⟩ ws where
  input _ _ := unshared_of_plain (.map fun _ inside => absurd inside List.not_mem_nil)
  values := List.pairwise_iff_forall_sublist.mpr fun {w _} there _ _ =>
    unshared_of_plain (plain w (there.subset List.mem_cons_self))

theorem plain_concat (before : m.asDraft.body.From []) (plain : u.value.body.From []) :
    (into m u).asDraft.body.From [] := by
  cases before with
  | map each =>
      have unshared : Unshared (u.value.parts ++ m.parts) (.map m.body) u.keys :=
        unshared_of_plain (.map each)
      obtain ⟨entries, (made : writeAt _ u.value.body _ _ _ = _), -⟩ := writeAt_here unshared
      have result : into m u = ⟨entries, u.value.parts ++ m.parts⟩ := by
        unfold into write
        dsimp only
        rw [made]
      rw [result]
      exact .map (from_writeAt Draft.closed_nil each plain made)

theorem plain_foldl (plain : ∀ w ∈ ws, w.value.body.From []) :
    (ws.foldl into ⟨[], []⟩).asDraft.body.From [] := by
  induction ws using List.reverseRecOn with
  | nil => exact .map fun _ inside => absurd inside List.not_mem_nil
  | append_singleton ws u ih =>
      obtain ⟨plain, last⟩ := List.forall_mem_append.mp plain
      rw [List.foldl_concat]
      exact plain_concat (ih plain) (last u (List.mem_singleton_self u))

theorem map_entries (plain : m.asDraft.body.From []) :
    Payload.map m.entries = m.asDraft.unfolded := by
  cases plain with
  | map each =>
      have unfolded : m.asDraft.unfolded = _ := Draft.unfolded_map each
      unfold Shared.entries
      rw [unfolded]

end Plain

end TaintFlow.Environment

namespace TaintFlow.Settings

open Environment (Asks Write)
open Environment.Write (into LastToMeet Meets)

variable {env : Environment} {ws : List Write}

/-! ## Names of settings -/

/-- The names of groups and of settings outside of groups consist of plain characters. -/
theorem plain_of_known {name : String} (known : name ∈ groups.map Prod.fst ++ ["include_corpus"]) :
    ∀ c ∈ name.toList, Text.IsPlain c := by
  have all : ((groups.map Prod.fst ++ ["include_corpus"]).all fun name =>
      name.toList.all fun c => decide (c.toNat < 128)) = true := by cbv
  intro c inside
  show c.toNat < 128
  exact of_decide_eq_true (List.all_eq_true.mp (List.all_eq_true.mp all name known) c inside)

theorem knownName_eq_self {name : String} {path : Environment.KeyPath}
    (spells : Environment.pathOf? name = some path) :
    knownName (groups.map Prod.fst ++ ["include_corpus"]) (.text path.1) = .text path.1 := by
  unfold knownName
  dsimp only
  cases found : (groups.map Prod.fst ++ ["include_corpus"]).find? (· == Text.lower path.1) with
  | none => rfl
  | some known =>
      have lowered : known = Text.lower path.1 := by simpa using List.find?_some found
      have plain := plain_of_known (List.mem_of_find?_eq_some found)
      rw [lowered] at plain
      rw [Option.getD_some, lowered, Environment.lower_key spells plain]

/-- Settings whose names are those of known ones, or of no known ones in any case, keep them. -/
theorem named_eq_self {m : Payload.Entries}
    (keeps : ∀ key ∈ m.map Prod.fst,
      knownName (groups.map Prod.fst ++ ["include_corpus"]) key = key) : named m = m := by
  have each : ∀ entry ∈ m,
      knownName (groups.map Prod.fst ++ ["include_corpus"]) entry.1 = entry.1 :=
    fun entry inside => keeps _ (List.mem_map_of_mem inside)
  have exact_ : m.filter (fun entry =>
      knownName (groups.map Prod.fst ++ ["include_corpus"]) entry.1 == entry.1) = m :=
    List.filter_eq_self.mpr fun entry inside => beq_iff_eq.mpr (each entry inside)
  have other : m.filter (fun entry =>
      knownName (groups.map Prod.fst ++ ["include_corpus"]) entry.1 != entry.1) = [] :=
    List.filter_eq_nil_iff.mpr fun entry inside => by simp [each entry inside]
  unfold named
  dsimp only
  rw [exact_, other]
  exact List.append_nil m

/-! ## An empty file -/

theorem ofEnvironment_eq_ok {s : Settings} :
    ofEnvironment env = .ok s ↔ ∃ below, inEnvironment env = .ok below ∧ read below = .ok s := by
  unfold ofEnvironment
  rw [Except.bind_eq_ok]
  simp only [Except.mapError_eq_ok, Checked.named_eq_ok]

theorem ofText_nil : ofText env "" =
    (env.overlay ⟨[], []⟩).mapError Yaml.Refusal.toFailure >>= fun m =>
      ofEntries env m.entries := by
  have nothing : Yaml.loadShared "" "".toList = .ok ⟨.whole .null, []⟩ := by cbv
  unfold ofText
  rw [nothing]
  rfl

theorem allNamed_of_keys {m : Payload.Entries}
    (names : ∀ key ∈ m.map Prod.fst, ∃ name, key = .text name) : allNamed m = true := by
  refine List.all_eq_true.mpr fun entry inside => ?_
  obtain ⟨name, same⟩ := names _ (List.mem_map_of_mem inside)
  obtain ⟨key, value⟩ := entry
  cases same
  rfl

/-- Settings of a mapping whose names are in their own spelling. -/
theorem ofEntries_eq_ok {m below : Payload.Entries} {s : Settings} (names : allNamed m = true)
    (own : named m = m) (given : inEnvironment env = .ok below) :
    ofEntries env m = .ok s ↔ read (laidOver m below) = .ok s := by
  unfold ofEntries
  rw [names, given]
  show (Checked.named model (read (laidOver (named m) below))).mapError
    Failure.invalid = .ok s ↔ _
  rw [Except.mapError_eq_ok, Checked.named_eq_ok, own]

/-- Lookups that obey writes into nothing: the last write whose path meets that of a lookup settles
it, and there is nothing where no write meets it. -/
structure Obeyed (ws : List Write) (found : List String → Option Payload) : Prop where
  untouched : ∀ q, q ≠ [] → (∀ w ∈ ws, ¬ w.Meets q) → found q = none
  written : ∀ q w rest, LastToMeet ws q w → q = w.keys ++ rest → found q = w.value.lookup rest
  opened : ∀ q w, LastToMeet ws q w → q <+: w.keys → q ≠ w.keys →
    ∃ entries, found q = some (.map entries)

theorem obeyed (distinct : (Assoc.keys env).Nodup) (asks : Asks env ws)
    (plain : ∀ w ∈ ws, w.value.body.From []) :
    Obeyed ws fun path => (Payload.map (ws.foldl into ⟨[], []⟩).entries).at? path := by
  have whole := Environment.plain_foldl plain
  have own : (⟨[], []⟩ : Shared Draft.Entries).asDraft.OfHome "" := Shared.ofHome_ofEntries "" []
  have obeys := asks.obeys distinct own (Environment.unaliased_of_plain plain)
  have lookup (path : List String) :
      (Payload.map (ws.foldl into ⟨[], []⟩).entries).at? path =
        (ws.foldl into ⟨[], []⟩).asDraft.lookup path := by
    rw [Environment.map_entries whole]
    exact whole.at?_unfolded
  simp only [lookup]
  refine ⟨fun q some_ none_ => ?_, obeys.written, fun q w last up differs => ?_⟩
  · rw [obeys.untouched q none_]
    obtain ⟨key, rest, rfl⟩ := List.exists_cons_of_ne_nil some_
    rfl
  · obtain ⟨d, entries, leads, opens⟩ := obeys.opened q w last up differs
    obtain ⟨below, unfolded⟩ := (whole.at? leads).exists_unfolded_eq_map opens
    rw [Shared.lookup, leads, Option.map_some, unfolded]
    exact ⟨below, rfl⟩

theorem ofText_nil_eq_ok {before after : Settings} (own : ofEnvironment env = .ok before) :
    ofText env "" = .ok after ↔ ∃ merged, env.overlay ⟨[], []⟩ = .ok merged ∧
      FollowEach (fun path => (Payload.map merged.entries).at? path) before after := by
  obtain ⟨below, given, was⟩ := ofEnvironment_eq_ok.mp own
  rw [ofText_nil, Except.bind_eq_ok]
  simp only [Except.mapError_eq_ok]
  refine exists_congr fun merged => and_congr_right fun made => ?_
  obtain ⟨ws, asks⟩ := Environment.exists_asks made
  obtain rfl := Except.ok.inj ((asks.overlay ⟨[], []⟩).symm.trans made)
  have neat := asks.neat
  have names : ∀ key ∈ (ws.foldl into ⟨[], []⟩).entries.map Prod.fst,
      ∃ w ∈ ws, key = .text w.path.1 :=
    fun key inside => neat.keys key (Shared.keys_entries inside)
  rw [ofEntries_eq_ok (allNamed_of_keys ?_) (named_eq_self ?_) given,
    read_laidOver neat.settled was]
  · intro key inside
    obtain ⟨w, _, same⟩ := names key inside
    exact ⟨_, same⟩
  · intro key inside
    obtain ⟨w, there, rfl⟩ := names key inside
    exact knownName_eq_self (asks.spells w there)

theorem ofFile_nil_eq_ok {folder : Folder} {path : Path} {settings : Settings}
    (holds : folder.TextAt path "") : ofFile folder env path = .ok settings ↔
      ∃ after, ofText env "" = .ok after ∧ settings = after.resolve path.parent := by
  have only (text : String) : folder.TextAt path text ↔ text = "" := by
    constructor
    · exact fun other => Except.ok.inj (other.2.symm.trans holds.2)
    · rintro rfl
      exact holds
  rw [ofFile_eq, Except.bind_eq_ok]
  simp only [Folder.fetch_eq_ok, only, exists_eq_left, Except.bind_eq_ok, Except.pure_eq_ok]

/-- Where the environment alone gives settings, an empty file gives some exactly if the values of
all variables can be read as documents and each setting that the variables spell can be read from
what they spell for it.  All other settings are those of the environment alone.  What is spelt for a
setting is settled by the last variable whose path meets that of the setting, if no value uses one
mapping in several places. -/
theorem ofFile_nil {folder : Folder} {path : Path} {before : Settings}
    (holds : folder.TextAt path "") (own : ofEnvironment env = .ok before) :
    (∀ settings, ofFile folder env path = .ok settings ↔
      ∃ merged after, env.overlay ⟨[], []⟩ = .ok merged ∧
        FollowEach (fun q => (Payload.map merged.entries).at? q) before after ∧
        settings = after.resolve path.parent) ∧
    ∀ merged, env.overlay ⟨[], []⟩ = .ok merged → ∃ ws, Asks env ws ∧
      ((Assoc.keys env).Nodup → (∀ w ∈ ws, w.value.body.From []) →
        Obeyed ws fun q => (Payload.map merged.entries).at? q) := by
  refine ⟨fun settings => ?_, fun merged made => ?_⟩
  · rw [ofFile_nil_eq_ok holds]
    simp only [ofText_nil_eq_ok own]
    constructor
    · rintro ⟨after, ⟨merged, made, follows⟩, same⟩
      exact ⟨merged, after, made, follows, same⟩
    · rintro ⟨merged, after, made, follows, same⟩
      exact ⟨after, ⟨merged, made, follows⟩, same⟩
  · obtain ⟨ws, asks⟩ := Environment.exists_asks made
    obtain rfl := Except.ok.inj ((asks.overlay ⟨[], []⟩).symm.trans made)
    exact ⟨ws, asks, fun distinct plain => obeyed distinct asks plain⟩

/-! ## A text in quotes -/

/-- A variable of a setting, whose text is in quotes. -/
def quoted : Environment := [("TAINTCHAIN_TELEMETRY__ENV", "'2'")]

/-- What it asks for. -/
def quotedWrite : Write :=
  ⟨"TAINTCHAIN_TELEMETRY__ENV", ("telemetry", ["env"]), ⟨.whole (.text "2"), []⟩⟩

/-- A folder with an empty file. -/
def blank : Folder := .ofTexts [("c.yaml", "")]

theorem textAt_blank : blank.TextAt (Path.ofText "c.yaml") "" :=
  ⟨by decide +kernel, by decide +kernel⟩

theorem ofEnvironment_quoted :
    ofEnvironment quoted = .ok { telemetry := { deployment := "'2'" } } := by
  have lowered : quoted.lowered = [("taintchain_telemetry__env", "'2'")] := by cbv
  refine ofEnvironment_eq_ok.mpr
    ⟨[(.text "telemetry", .map [(.text "env", .text "'2'")])], ?_, read_eq_ok.mpr ?_⟩
  · unfold inEnvironment
    rw [lowered]
    rfl
  · simp [Payload.fieldOr, Payload.Entries.text?_cons, Payload.Entries.text?_nil, readGroup,
      readTelemetry_eq_ok, Checked.under_eq_ok, Payload.readText]

theorem overlay_quoted : ∃ merged, quoted.overlay ⟨[], []⟩ = .ok merged ∧
    merged.entries = [(.text "telemetry", .map [(.text "env", .text "2")])] := by
  have asks : Asks quoted [quotedWrite] := .write (by cbv) (Environment.valueOf_quoted _) .none
  have written : [quotedWrite].foldl into ⟨[], []⟩ =
      ⟨[(.text "telemetry", .map [(.text "env", .whole (.text "2"))])], []⟩ := by
    simp [into, quotedWrite, Environment.write, Environment.writeAt, Payload.Entries.text?_nil,
      Payload.Entries.put]
  refine ⟨_, asks.overlay ⟨[], []⟩, ?_⟩
  rw [written]
  cbv

theorem ofFile_nil_quoted : ofFile blank quoted (Path.ofText "c.yaml") =
    .ok { telemetry := { deployment := "2" } } := by
  obtain ⟨merged, made, entries⟩ := overlay_quoted
  refine ((ofFile_nil textAt_blank ofEnvironment_quoted).1 _).mpr
    ⟨merged, { telemetry := { deployment := "2" } }, made, ?_, rfl⟩
  have found (name : String) (rest : List String) :
      (Payload.map merged.entries).at? (name :: rest) =
      if name = "telemetry" then (Payload.map [(.text "env", .text "2")]).at? rest else none := by
    rw [entries, Payload.at?, Payload.Entries.text?_cons]
    by_cases here : name = "telemetry"
    · subst here
      rw [if_pos rfl, if_pos rfl, Option.bind_some]
    · rw [if_neg here, if_neg fun same => here (Payload.text.inj same).symm]
      rfl
  have inside (key : String) : (Payload.map [(.text "env", .text "2")]).at? [key] =
      if key = "env" then some (.text "2") else none := by
    rw [Payload.at?_key, Payload.Entries.text?_cons, Payload.Entries.text?_nil]
    exact if_congr (by simp [eq_comm]) rfl rfl
  have group (name : String) (p : Payload)
      (there : (Payload.map merged.entries).at? [name] = some p) : ∃ entries, p = .map entries := by
    rw [found] at there
    split at there
    · rw [Payload.at?] at there
      exact ⟨_, (Option.some.inj there).symm⟩
    · cases there
  exact {
    groups := fun name _ => group name
    harness := by constructor <;> simp [Follows, found]
    logging := by constructor <;> simp [Follows, found]
    telemetry := by constructor <;> simp [Follows, found, inside, Payload.readText]
    metricsEnabled := by simp [Follows, found]
    ledger := by simp [Follows, found]
    catalogs := by simp [Follows, found]
    includeCorpus := by simp [Follows, found] }

theorem not_every_nil_agrees : ¬ ∀ (folder : Folder) (env : Environment) (path : Path)
    (before : Settings), folder.TextAt path "" → ofEnvironment env = .ok before →
      ofFile folder env path = .ok (before.resolve path.parent) := by
  intro all
  obtain ⟨after, alone, same⟩ := (ofFile_nil_eq_ok textAt_blank).mp
    (all _ _ _ _ textAt_blank ofEnvironment_quoted)
  obtain ⟨merged, made, follows⟩ := (ofText_nil_eq_ok ofEnvironment_quoted).mp alone
  obtain ⟨_, made', entries⟩ := overlay_quoted
  obtain rfl := Except.ok.inj (made.symm.trans made')
  have kept : "'2'" = after.telemetry.deployment :=
    congrArg (fun settings => settings.telemetry.deployment) same
  have read := follows.telemetry.deployment
  rw [entries, ← kept] at read
  simp [Follows, Payload.at?, Payload.Entries.text?_cons, Payload.readText] at read

end TaintFlow.Settings
