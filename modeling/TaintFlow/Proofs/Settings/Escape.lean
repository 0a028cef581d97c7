import TaintFlow.CommandLine.Opening
import TaintFlow.Proofs.Yaml.Refusal

/-!
# Mishaps that reading settings lets pass

A mishap of one of the told kinds becomes a reason for the user; one of any
other kind escapes.  While settings are read a mishap escapes from five places:
the way to the file, its text, the texts of the variables that are written into
it, a key that is no name, and a variable that holds deeply nested JSON.
`escapes_ofFile_iff` says that there are no others, and at which of them it
happens, and `kind_of_fileEscape` lists the kinds of these mishaps.
-/

namespace TaintFlow

/-! ## Escaping -/

/-- The outcome is a mishap that is not told. -/
def Escapes {α : Type} (outcome : Except Failure α) (m : Mishap) : Prop :=
  outcome = .error (.mishap m) ∧ m.kind ∉ Failure.toldKinds

namespace Failure

theorem isTold_mishap_eq_false_iff {m : Mishap} :
    (mishap m).isTold = false ↔ m.kind ∉ toldKinds := by
  rw [isTold, List.contains_eq_mem, decide_eq_false_iff_not]

/-- What is not told is a mishap. -/
theorem isTold_eq_false_iff {failure : Failure} :
    failure.isTold = false ↔ ∃ m, failure = .mishap m ∧ m.kind ∉ toldKinds := by
  cases failure with
  | fault f => exact ⟨nofun, nofun⟩
  | invalid what => exact ⟨nofun, nofun⟩
  | mishap m =>
      rw [isTold_mishap_eq_false_iff]
      constructor
      · exact fun untold => ⟨m, rfl, untold⟩
      · rintro ⟨_, same, untold⟩
        cases same
        exact untold

end Failure

namespace Escapes

variable {α β : Type} {m : Mishap}

/-- A mishap escapes from two parts if it does from the first, or from the second with what the
first gives. -/
theorem bind_iff {first : Except Failure α} {second : α → Except Failure β} :
    Escapes (first >>= second) m ↔
      Escapes first m ∨ ∃ a, first = .ok a ∧ Escapes (second a) m := by
  unfold Escapes
  rw [Except.bind_eq_error]
  constructor
  · rintro ⟨failed | ⟨a, done, failed⟩, untold⟩
    · exact .inl ⟨failed, untold⟩
    · exact .inr ⟨a, done, failed, untold⟩
  · rintro (⟨failed, untold⟩ | ⟨a, done, failed, untold⟩)
    · exact ⟨.inl failed, untold⟩
    · exact ⟨.inr ⟨a, done, failed⟩, untold⟩

theorem bind_pure_iff {first : Except Failure α} {f : α → β} :
    Escapes (do return f (← first)) m ↔ Escapes first m := by
  rw [bind_iff]
  exact ⟨fun either => either.resolve_right fun ⟨_, _, failed, _⟩ => (nomatch failed), .inl⟩

theorem mapError_mishap_iff {outcome : Except Mishap α} :
    Escapes (outcome.mapError .mishap) m ↔ outcome = .error m ∧ m.kind ∉ Failure.toldKinds := by
  unfold Escapes
  rw [Except.mapError_eq_error]
  constructor
  · rintro ⟨⟨_, failed, same⟩, untold⟩
    cases same
    exact ⟨failed, untold⟩
  · rintro ⟨failed, untold⟩
    exact ⟨⟨m, failed, rfl⟩, untold⟩

/-- Nothing escapes from a check of the form of data. -/
theorem not_mapError_invalid {outcome : Except Invalid α} :
    ¬ Escapes (outcome.mapError .invalid) m := by
  rintro ⟨failed, _⟩
  obtain ⟨_, _, same⟩ := Except.mapError_eq_error.mp failed
  cases same

theorem mapError_toFailure_iff {outcome : Except Yaml.Refusal α} :
    Escapes (outcome.mapError Yaml.Refusal.toFailure) m ↔
      ∃ why, outcome = .error why ∧ why.toMishap = m ∧ m.kind ∉ Failure.toldKinds := by
  unfold Escapes
  rw [Except.mapError_eq_error]
  constructor
  · rintro ⟨⟨why, failed, same⟩, untold⟩
    cases same
    exact ⟨why, failed, rfl, untold⟩
  · rintro ⟨why, failed, rfl, untold⟩
    exact ⟨⟨why, failed, rfl⟩, untold⟩

/-- The kinds of mishaps that escape from reading files and variables. -/
def kinds : List String :=
  ["OSError", "IsADirectoryError", "YAMLError", "RecursionError", "IndexError", "KeyError",
    "AttributeError", "TypeError", "OverflowError"]

/-- A scalar that cannot be converted escapes unless it is a value out of place. -/
theorem kind_of_scalar {m : Mishap} (known : (Yaml.Refusal.mishap m).Known)
    (untold : m.kind ∉ Failure.toldKinds) : m.kind ∈ kinds ∧ m.kind ≠ "YAMLError" := by
  have each : ∀ kind ∈ Yaml.Refusal.kinds,
      kind ∉ Failure.toldKinds → kind ∈ kinds ∧ kind ≠ "YAMLError" := by decide
  exact each m.kind known untold

theorem kind_of_refusal {why : Yaml.Refusal} (known : why.Known)
    (untold : why.toMishap.kind ∉ Failure.toldKinds) : why.toMishap.kind ∈ kinds := by
  cases why with
  | malformed => exact (by decide : "YAMLError" ∈ kinds)
  | mishap m => exact (kind_of_scalar known untold).1

end Escapes

/-! ## Files -/

namespace Folder

variable {f : Folder} {p : Path} {m : Mishap} {text missing : String}

/-- The text at a path; `missing` is told if there is nothing. -/
def fetch (f : Folder) (p : Path) (missing : String) : Except Failure String := do
  unless ← (f.exists? p).mapError .mishap do
    throw (.mishap ⟨"FileNotFoundError", missing⟩)
  (f.readText p).mapError .mishap

/-- A path leads to a file with a text. -/
def TextAt (f : Folder) (p : Path) (text : String) : Prop :=
  f.isTooLong p = false ∧ f.readText p = .ok text

/-- The mishaps of the way to a text that are not told. -/
inductive Impassable (f : Folder) (p : Path) : Mishap → Prop
  | long (tooLong : f.isTooLong p = true) : f.Impassable p (Folder.tooLong p)
  | folder (fits : f.isTooLong p = false) (leads : f.hasFolder p = true) :
      f.Impassable p (isDirectory p)

theorem has_of_readText (read : f.readText p = .ok text) : f.has p = true := by
  unfold readText at read
  split at read
  · cases read
  · split at read
    · rename_i found
      rw [has, found, Option.isSome_some, Bool.or_true]
    · cases read
    · cases read

theorem fetch_eq_ok : f.fetch p missing = .ok text ↔ f.TextAt p text := by
  unfold fetch exists? TextAt
  cases long : f.isTooLong p with
  | true => exact ⟨nofun, nofun⟩
  | false =>
      cases there : f.has p with
      | true => exact Except.mapError_eq_ok.trans ⟨.intro rfl, And.right⟩
      | false =>
          refine ⟨nofun, fun ⟨_, read⟩ => ?_⟩
          cases there.symm.trans (has_of_readText read)

theorem readText_eq_untold :
    (f.readText p = .error m ∧ m.kind ∉ Failure.toldKinds) ↔
      f.hasFolder p = true ∧ m = isDirectory p := by
  unfold readText
  cases leads : f.hasFolder p with
  | true =>
      constructor
      · rintro ⟨failed, _⟩
        exact ⟨rfl, (Except.error.inj failed).symm⟩
      · rintro ⟨_, rfl⟩
        exact ⟨rfl, (by decide : "IsADirectoryError" ∉ Failure.toldKinds)⟩
  | false =>
      rw [if_neg Bool.false_ne_true]
      refine ⟨?_, nofun⟩
      rintro ⟨failed, untold⟩
      split at failed
      · cases failed
      · cases failed
        exact absurd (by decide : "UnicodeDecodeError" ∈ Failure.toldKinds) untold
      · cases failed
        exact absurd (by decide : "FileNotFoundError" ∈ Failure.toldKinds) untold

theorem escapes_fetch_iff : Escapes (f.fetch p missing) m ↔ f.Impassable p m := by
  unfold fetch exists?
  cases long : f.isTooLong p with
  | true =>
      constructor
      · rintro ⟨failed, _⟩
        cases failed
        exact .long long
      · rintro (_ | ⟨fits, _⟩)
        · exact ⟨rfl, (by decide : "OSError" ∉ Failure.toldKinds)⟩
        · cases long.symm.trans fits
  | false =>
      have reached : (Escapes ((f.readText p).mapError .mishap) m) ↔ f.Impassable p m := by
        rw [Escapes.mapError_mishap_iff, readText_eq_untold]
        constructor
        · rintro ⟨leads, rfl⟩
          exact .folder long leads
        · rintro (tooLong | ⟨_, leads⟩)
          · cases long.symm.trans tooLong
          · exact ⟨leads, rfl⟩
      cases there : f.has p with
      | true => exact reached
      | false =>
          constructor
          · rintro ⟨failed, untold⟩
            cases failed
            exact absurd (by decide : "FileNotFoundError" ∈ Failure.toldKinds) untold
          · rintro (tooLong | ⟨_, leads⟩)
            · cases long.symm.trans tooLong
            · rw [has, leads, Bool.true_or] at there
              cases there

theorem kind_of_impassable (impassable : f.Impassable p m) :
    m.kind ∈ Escapes.kinds ∧ m.kind ≠ "YAMLError" := by
  cases impassable with
  | long => exact (by decide : "OSError" ∈ Escapes.kinds ∧ "OSError" ≠ "YAMLError")
  | folder =>
      exact (by decide : "IsADirectoryError" ∈ Escapes.kinds ∧ "IsADirectoryError" ≠ "YAMLError")

end Folder

/-! ## Variables -/

namespace Environment

/-- Read the value of a variable, if the variable counts. -/
def reading (variable_ : String × String) : Except Yaml.Refusal (Option (Shared Draft)) :=
  match pathOf? variable_.1 with
  | none => .ok none
  | some _ => (valueOf variable_.1 variable_.2).map some

theorem applyOne_eq_error {m : Shared Draft.Entries} {variable_ : String × String}
    {why : Yaml.Refusal} :
    applyOne m variable_ = .error why ↔ reading variable_ = .error why := by
  unfold applyOne reading
  cases pathOf? variable_.1 with
  | none => exact ⟨nofun, nofun⟩
  | some path =>
      dsimp only
      cases valueOf variable_.1 variable_.2 with
      | error other =>
          exact ⟨fun same => congrArg Except.error (Except.error.inj same),
            fun same => congrArg Except.error (Except.error.inj same)⟩
      | ok value => exact ⟨nofun, nofun⟩

/-- Overrides fail with the first variable that counts and cannot be read, whatever they are
written into. -/
theorem overlay_eq_error {env : Environment} {m : Shared Draft.Entries} {why : Yaml.Refusal} :
    env.overlay m = .error why ↔ Except.FirstFails reading env why := by
  unfold overlay
  refine Except.foldlM_eq_error ?_
  intro m variable_ why
  exact applyOne_eq_error

theorem known_of_reading {variable_ : String × String} {why : Yaml.Refusal}
    (failed : reading variable_ = .error why) : why.Known := by
  unfold reading at failed
  split at failed
  · cases failed
  · cases held : valueOf variable_.1 variable_.2 with
    | ok value =>
        rw [held] at failed
        cases failed
    | error other =>
        rw [held] at failed
        cases failed
        unfold valueOf at held
        obtain refused | ⟨value, _, kept⟩ := Except.bind_eq_error.mp held
        · exact Yaml.known_of_loadShared refused
        · split at kept <;> cases kept

end Environment

namespace Settings

variable {env : Environment} {m : Mishap}

/-- The first group of settings whose variable cannot be read holds JSON that is nested too
deep. -/
inductive TooDeep (env : Environment) : Mishap → Prop
  | group {before after : List (String × List String)} {name text : String}
      {known : List String} {bracket : Char} (listed : groups = before ++ (name, known) :: after)
      (fine : ∀ earlier ∈ before, ∃ given, groupIn env.lowered earlier.1 = .ok given)
      (held : env.lowered.find? (Environment.variableOf name) = some text)
      (deep : Json.overDeep? text = some bracket) : TooDeep env (deepGroup bracket)

theorem groupIn_eq_error {name : String} :
    groupIn env name = .error m ↔ ∃ text, env.find? (Environment.variableOf name) = some text ∧
      ((∃ bracket, Json.overDeep? text = some bracket ∧ deepGroup bracket = m) ∨
        Json.overDeep? text = none ∧ Json.ofString? text = none ∧ badGroup name = m) := by
  unfold groupIn
  cases env.find? (Environment.variableOf name) with
  | none => exact ⟨nofun, nofun⟩
  | some text =>
      dsimp only
      cases deep : Json.overDeep? text with
      | some bracket =>
          constructor
          · exact fun failed => ⟨text, rfl, .inl ⟨bracket, deep, Except.error.inj failed⟩⟩
          · rintro ⟨_, same, ⟨other, found, rfl⟩ | ⟨none, _⟩⟩
            · cases same
              rw [Option.some.inj (deep.symm.trans found)]
            · cases same
              cases deep.symm.trans none
      | none =>
          cases json : Json.ofString? text with
          | none =>
              constructor
              · exact fun failed => ⟨text, rfl, .inr ⟨deep, json, Except.error.inj failed⟩⟩
              · rintro ⟨_, same, ⟨other, found, _⟩ | ⟨_, _, rfl⟩⟩
                · cases same
                  cases deep.symm.trans found
                · rfl
          | some value =>
              constructor
              · intro failed
                rw [Option.map_some] at failed
                cases payload : Payload.ofJson value <;> rw [payload] at failed <;> cases failed
              · rintro ⟨_, same, ⟨other, found, _⟩ | ⟨_, none, _⟩⟩
                · cases same
                  cases deep.symm.trans found
                · cases same
                  cases json.symm.trans none

/-- What the environment gives fails with the first group that cannot be read. -/
theorem inEnvironment_eq_error :
    inEnvironment env = .error m ↔
      Except.FirstFails (fun group => groupIn env.lowered group.1) groups m := by
  unfold inEnvironment
  rw [Except.bind_eq_error, Except.mapM_eq_error]
  refine (or_iff_left fun ⟨_, _, failed⟩ => (nomatch failed)).trans (Except.firstFails_congr ?_)
  rintro ⟨name, known⟩ e
  dsimp only
  rw [Except.bind_eq_error]
  refine or_iff_left ?_
  rintro ⟨given, _, failed⟩
  split at failed <;> cases failed

/-- The first group that cannot be read holds JSON that is nested too deep, or no JSON. -/
theorem tooDeep_or_badGroup (failed : inEnvironment env = .error m) :
    TooDeep env m ∨ ∃ name, m = badGroup name := by
  obtain ⟨before, ⟨name, known⟩, after, listed, fine, refused⟩ := inEnvironment_eq_error.mp failed
  obtain ⟨text, held, ⟨bracket, deep, rfl⟩ | ⟨_, _, rfl⟩⟩ := groupIn_eq_error.mp refused
  · exact .inl (.group listed fine held deep)
  · exact .inr ⟨name, rfl⟩

theorem isTold_badGroup (name : String) : (badGroup name).kind ∈ Failure.toldKinds :=
  (by decide : "SettingsError" ∈ Failure.toldKinds)

theorem inEnvironment_of_tooDeep (deep : TooDeep env m) :
    inEnvironment env = .error m ∧ m.kind = "RecursionError" := by
  obtain ⟨listed, fine, held, deep⟩ := deep
  refine ⟨inEnvironment_eq_error.mpr ⟨_, _, _, listed, fine, ?_⟩, rfl⟩
  exact groupIn_eq_error.mpr ⟨_, held, .inl ⟨_, deep, rfl⟩⟩

theorem kind_of_tooDeep (deep : TooDeep env m) : m.kind ∈ Escapes.kinds :=
  (inEnvironment_of_tooDeep deep).2 ▸ by decide

/-- What escapes when the settings are those of the environment alone. -/
theorem escapes_ofEnvironment_iff : Escapes (ofEnvironment env) m ↔ TooDeep env m := by
  unfold ofEnvironment
  rw [Escapes.bind_iff, Escapes.mapError_mishap_iff]
  constructor
  · rintro (⟨failed, untold⟩ | ⟨_, _, escapes⟩)
    · refine (tooDeep_or_badGroup failed).resolve_right ?_
      rintro ⟨name, rfl⟩
      exact untold (isTold_badGroup name)
    · exact (Escapes.not_mapError_invalid escapes).elim
  · intro deep
    obtain ⟨failed, kind⟩ := inEnvironment_of_tooDeep deep
    exact .inl ⟨failed, kind ▸ by decide⟩

/-- The mishap of a key that is no name. -/
def unnamed : Mishap := .badType "keywords must be strings"

theorem allNamed_eq_false_iff {given : Payload.Entries} :
    allNamed given = false ↔ ∃ entry ∈ given, ∀ name, entry.1 ≠ .text name := by
  unfold allNamed
  rw [List.all_eq_false]
  refine exists_congr fun entry => and_congr_right fun _ => ?_
  obtain ⟨key, value⟩ := entry
  cases key <;> simp

theorem ofEntries_of_error {given : Payload.Entries} (named : allNamed given = true)
    (failed : inEnvironment env = .error m) :
    ofEntries env given =
      .error (if m.isOverDeep then .mishap m else .invalid ⟨model, [⟨[], .refused⟩]⟩) := by
  unfold ofEntries
  rw [named, failed]
  rfl

theorem escapes_ofEntries_of_allNamed {given : Payload.Entries} (named : allNamed given = true) :
    Escapes (ofEntries env given) m ↔ TooDeep env m := by
  constructor
  · intro escapes
    cases found : inEnvironment env with
    | ok below =>
        unfold ofEntries at escapes
        rw [named, found] at escapes
        exact (Escapes.not_mapError_invalid escapes).elim
    | error mishap =>
        rw [ofEntries_of_error named found] at escapes
        obtain ⟨failed, _⟩ := escapes
        obtain deep | ⟨name, rfl⟩ := tooDeep_or_badGroup found
        · have overDeep : mishap.isOverDeep = true :=
            beq_iff_eq.mpr (inEnvironment_of_tooDeep deep).2
          rw [overDeep] at failed
          cases failed
          exact deep
        · cases failed
  · intro deep
    obtain ⟨failed, kind⟩ := inEnvironment_of_tooDeep deep
    have overDeep : m.isOverDeep = true := beq_iff_eq.mpr kind
    refine ⟨?_, kind ▸ by decide⟩
    rw [ofEntries_of_error named failed, overDeep]
    rfl

/-- What escapes when the settings are those of a mapping with the environment below it. -/
theorem escapes_ofEntries_iff {given : Payload.Entries} :
    Escapes (ofEntries env given) m ↔
      allNamed given = false ∧ m = unnamed ∨ allNamed given = true ∧ TooDeep env m := by
  cases named : allNamed given with
  | true => simp [escapes_ofEntries_of_allNamed named]
  | false =>
      unfold ofEntries
      rw [named]
      constructor
      · rintro ⟨failed, _⟩
        cases failed
        exact .inl ⟨rfl, rfl⟩
      · rintro (⟨_, rfl⟩ | ⟨other, _⟩)
        · exact ⟨rfl, by decide⟩
        · cases other

/-- The section of settings in the file at a path. -/
def SectionAt (folder : Folder) (path : Path) (given : Shared Draft.Entries) : Prop :=
  ∃ text loaded, folder.TextAt path text ∧ Yaml.loadShared "" text.toList = .ok loaded ∧
    sectionOf loaded = .ok given

/-- The mishaps that escape when the settings are those of a file. -/
inductive FileEscape (folder : Folder) (env : Environment) (path : Path) : Mishap → Prop
  | way {m : Mishap} (impassable : folder.Impassable path m) : FileEscape folder env path m
  | text {text : String} {why : Yaml.Refusal} (holds : folder.TextAt path text)
      (refused : Yaml.loadShared "" text.toList = .error why)
      (untold : why.toMishap.kind ∉ Failure.toldKinds) : FileEscape folder env path why.toMishap
  | variable_ {given : Shared Draft.Entries} {why : Yaml.Refusal}
      (holds : SectionAt folder path given)
      (refused : Except.FirstFails Environment.reading env why)
      (untold : why.toMishap.kind ∉ Failure.toldKinds) : FileEscape folder env path why.toMishap
  | key {given merged : Shared Draft.Entries} (holds : SectionAt folder path given)
      (overlaid : env.overlay given = .ok merged)
      (nameless : ∃ entry ∈ merged.entries, ∀ name, entry.1 ≠ .text name) :
      FileEscape folder env path unnamed
  | deep {given merged : Shared Draft.Entries} {m : Mishap} (holds : SectionAt folder path given)
      (overlaid : env.overlay given = .ok merged) (named : allNamed merged.entries = true)
      (deep : TooDeep env m) : FileEscape folder env path m

theorem not_escapes_sectionOf {loaded : Shared Draft} :
    ¬ Escapes ((sectionOf loaded).mapError .mishap) m := by
  rw [Escapes.mapError_mishap_iff]
  rintro ⟨failed, untold⟩
  have valueError : m.kind = "ValueError" := by
    unfold sectionOf at failed
    split at failed
    · split at failed
      · cases failed
      · split at failed <;> cases failed
        rfl
    · split at failed <;> cases failed
      rfl
  rw [valueError] at untold
  exact absurd (by decide) untold

/-- What escapes when the settings are those of the text of a file. -/
theorem escapes_ofText_iff {text : String} :
    Escapes (ofText env text) m ↔
      (∃ why, Yaml.loadShared "" text.toList = .error why ∧ why.toMishap = m ∧
          m.kind ∉ Failure.toldKinds) ∨
        ∃ loaded given, Yaml.loadShared "" text.toList = .ok loaded ∧
          sectionOf loaded = .ok given ∧
          ((∃ why, Except.FirstFails Environment.reading env why ∧ why.toMishap = m ∧
              m.kind ∉ Failure.toldKinds) ∨
            ∃ merged, env.overlay given = .ok merged ∧ Escapes (ofEntries env merged.entries) m) := by
  simp only [ofText, Escapes.bind_iff, Escapes.mapError_toFailure_iff, not_escapes_sectionOf,
    Except.mapError_eq_ok, Environment.overlay_eq_error, false_or, exists_and_left]

theorem ofFile_eq {folder : Folder} {path : Path} :
    ofFile folder env path = do
      let text ← folder.fetch path s!"config file not found: {path.text}"
      return (← ofText env text).resolve path.parent := by
  unfold ofFile Folder.fetch
  cases folder.exists? path with
  | error mishap => rfl
  | ok there => cases there <;> rfl

/-- What escapes when the settings are those of a file. -/
theorem escapes_ofFile_iff {folder : Folder} {path : Path} :
    Escapes (ofFile folder env path) m ↔ FileEscape folder env path m := by
  rw [ofFile_eq, Escapes.bind_iff, Folder.escapes_fetch_iff]
  simp only [Escapes.bind_pure_iff, Folder.fetch_eq_ok, escapes_ofText_iff, escapes_ofEntries_iff]
  constructor
  · rintro (impassable | ⟨text, holds, ⟨why, refused, rfl, untold⟩ |
      ⟨loaded, given, read, inside, rest⟩⟩)
    · exact .way impassable
    · exact .text holds refused untold
    · have placed : SectionAt folder path given := ⟨text, loaded, holds, read, inside⟩
      obtain ⟨why, refused, rfl, untold⟩ | ⟨merged, overlaid, ⟨nameless, rfl⟩ | ⟨named, deep⟩⟩ := rest
      · exact .variable_ placed refused untold
      · exact .key placed overlaid (allNamed_eq_false_iff.mp nameless)
      · exact .deep placed overlaid named deep
  · rintro (impassable | ⟨holds, refused, untold⟩ | ⟨placed, refused, untold⟩ |
      ⟨placed, overlaid, nameless⟩ | ⟨placed, overlaid, named, deep⟩)
    · exact .inl impassable
    · exact .inr ⟨_, holds, .inl ⟨_, refused, rfl, untold⟩⟩
    · obtain ⟨text, loaded, holds, read, inside⟩ := placed
      exact .inr ⟨text, holds, .inr ⟨loaded, _, read, inside, .inl ⟨_, refused, rfl, untold⟩⟩⟩
    · obtain ⟨text, loaded, holds, read, inside⟩ := placed
      exact .inr ⟨text, holds, .inr ⟨loaded, _, read, inside, .inr ⟨_, overlaid,
        .inl ⟨allNamed_eq_false_iff.mpr nameless, rfl⟩⟩⟩⟩
    · obtain ⟨text, loaded, holds, read, inside⟩ := placed
      exact .inr ⟨text, holds, .inr ⟨loaded, _, read, inside, .inr ⟨_, overlaid,
        .inr ⟨named, deep⟩⟩⟩⟩

/-- The kinds of the mishaps that escape from a file of settings. -/
theorem kind_of_fileEscape {folder : Folder} {path : Path} (escape : FileEscape folder env path m) :
    m.kind ∈ Escapes.kinds := by
  cases escape with
  | way impassable => exact (Folder.kind_of_impassable impassable).1
  | text _ refused untold => exact Escapes.kind_of_refusal (Yaml.known_of_loadShared refused) untold
  | variable_ _ refused untold =>
      obtain ⟨_, _, _, _, _, failed⟩ := refused
      exact Escapes.kind_of_refusal (Environment.known_of_reading failed) untold
  | key => exact (by decide : "TypeError" ∈ Escapes.kinds)
  | deep _ _ _ deep => exact kind_of_tooDeep deep

end Settings

end TaintFlow
