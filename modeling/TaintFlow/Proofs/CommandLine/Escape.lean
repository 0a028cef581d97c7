import TaintFlow.Proofs.Settings.Escape
import TaintFlow.Proofs.CommandLine.Opening

/-!
# What a command cannot open

A harness is opened, or it is refused with the text of what is wrong, unless a
mishap escapes from the settings or from a catalog.  `reported_unless_escaping`
tells the three cases apart.
-/

namespace TaintFlow

namespace Catalog

variable {folder : Folder} {path : Path} {m : Mishap}

/-- The mishaps that escape from a catalog's file. -/
inductive FileEscape (folder : Folder) (path : Path) : Mishap → Prop
  | way {m : Mishap} (impassable : folder.Impassable path m) : FileEscape folder path m
  | scalar {text : String} {m : Mishap} (holds : folder.TextAt path text)
      (refused : Yaml.loadShared "" text.toList = .error (.mishap m))
      (untold : m.kind ∉ Failure.toldKinds) : FileEscape folder path m

theorem load_eq_error {text : List Char} {why : Yaml.Refusal} :
    Yaml.load text = .error why ↔ Yaml.loadShared "" text = .error why := by
  unfold Yaml.load
  cases Yaml.loadShared "" text with
  | error other =>
      exact ⟨fun same => congrArg Except.error (Except.error.inj same),
        fun same => congrArg Except.error (Except.error.inj same)⟩
  | ok loaded => exact ⟨nofun, nofun⟩

/-- A text that is no YAML is told, and so is whatever does not fit a catalog. -/
theorem escapes_parse_iff {text origin : String} :
    Escapes (parse text origin) m ↔
      Yaml.loadShared "" text.toList = .error (.mishap m) ∧ m.kind ∉ Failure.toldKinds := by
  rw [← load_eq_error]
  unfold parse
  cases Yaml.load text.toList with
  | ok loaded =>
      refine ⟨?_, nofun⟩
      rintro ⟨failed, _⟩
      obtain ⟨flaw, _, same⟩ := Except.mapError_eq_error.mp failed
      cases same
  | error why =>
      cases why with
      | malformed => exact ⟨nofun, nofun⟩
      | mishap other =>
          refine and_congr_left fun _ => ⟨?_, ?_⟩
          · intro same
            cases same
            rfl
          · intro same
            cases same
            rfl

theorem load_eq :
    load folder path =
      folder.fetch path s!"catalog file not found: {path.text}" >>= fun text =>
        parse text path.text := by
  unfold load Folder.fetch
  cases folder.exists? path with
  | error mishap => rfl
  | ok there => cases there <;> rfl

theorem escapes_load_iff : Escapes (load folder path) m ↔ FileEscape folder path m := by
  rw [load_eq, Escapes.bind_iff, Folder.escapes_fetch_iff]
  simp only [Folder.fetch_eq_ok, escapes_parse_iff]
  constructor
  · rintro (impassable | ⟨text, holds, refused, untold⟩)
    · exact .way impassable
    · exact .scalar holds refused untold
  · rintro (impassable | ⟨holds, refused, untold⟩)
    · exact .inl impassable
    · exact .inr ⟨_, holds, refused, untold⟩

/-- What escapes from a catalog is of a kind that escapes, and never that of a text that is no
YAML. -/
theorem kind_of_fileEscape (escape : FileEscape folder path m) :
    m.kind ∈ Escapes.kinds ∧ m.kind ≠ "YAMLError" := by
  cases escape with
  | way impassable => exact Folder.kind_of_impassable impassable
  | scalar _ refused untold => exact Escapes.kind_of_scalar (Yaml.known_of_loadShared refused) untold

end Catalog

namespace Opening

variable {folder : Folder} {env : Environment} {config : Option Path} {catalogs : List Path}
  {issued : Nat} {m : Mishap} {h : Harness}

theorem escapes_registerCatalog_iff {path : Path} :
    Escapes (h.registerCatalog folder path).1 m ↔ Catalog.FileEscape folder path m := by
  rw [← Catalog.escapes_load_iff]
  unfold Harness.registerCatalog
  cases Catalog.load folder path with
  | error failure =>
      refine and_congr_left fun _ => ⟨?_, ?_⟩
      · intro same
        cases same
        rfl
      · intro same
        cases same
        rfl
  | ok chains =>
      refine ⟨?_, nofun⟩
      rintro ⟨failed, _⟩
      dsimp only at failed
      split at failed <;> cases failed

theorem registerAll_cons {path : Path} {rest : List Path} :
    registerAll folder h (path :: rest) =
      ((h.registerCatalog folder path).1 >>= fun _ =>
        registerAll folder (h.registerCatalog folder path).2 rest) := by
  rw [registerAll]
  split <;> rename_i same <;> rw [same] <;> rfl

/-- A mishap escapes from catalogs with the first one that cannot be registered. -/
theorem escapes_registerAll_iff {paths : List Path} :
    Escapes (registerAll folder h paths) m ↔
      ∃ before path after h', paths = before ++ path :: after ∧
        registerAll folder h before = .ok h' ∧ Catalog.FileEscape folder path m := by
  induction paths generalizing h with
  | nil =>
      refine ⟨nofun, ?_⟩
      rintro ⟨before, path, after, _, same, _⟩
      exact absurd same.symm (List.append_ne_nil_of_right_ne_nil _ (List.cons_ne_nil _ _))
  | cons first rest ih =>
      rw [registerAll_cons, Escapes.bind_iff, escapes_registerCatalog_iff]
      constructor
      · rintro (escapes | ⟨handles, registered, others⟩)
        · exact ⟨[], first, rest, h, rfl, rfl, escapes⟩
        · obtain ⟨before, path, after, h', rfl, done, escapes⟩ := ih.mp others
          refine ⟨first :: before, path, after, h', rfl, ?_, escapes⟩
          rw [registerAll_cons, registered]
          exact done
      · rintro ⟨_ | ⟨_, before⟩, path, after, h', same, done, escapes⟩
        · cases same
          exact .inl escapes
        · cases same
          rw [registerAll_cons] at done
          obtain ⟨handles, registered, others⟩ := Except.bind_eq_ok.mp done
          exact .inr ⟨handles, registered, ih.mpr ⟨before, path, after, h', rfl, others, escapes⟩⟩

/-- The mishaps that escape from the settings of a command. -/
def SettingsEscape (folder : Folder) (env : Environment) : Option Path → Mishap → Prop
  | none => Settings.TooDeep env
  | some path => Settings.FileEscape folder env path

theorem escapes_settings_iff :
    Escapes (settings folder env config) m ↔ SettingsEscape folder env config m := by
  cases config with
  | none => exact Settings.escapes_ofEnvironment_iff
  | some path => exact Settings.escapes_ofFile_iff

/-- The harness of settings before the chains of catalogs are defined. -/
def bare (s : Settings) (issued : Nat) : Harness :=
  { (if s.includeCorpus then Corpus.installed (Harness.empty s.harness)
      else Harness.empty s.harness) with issued }

/-- The mishaps that escape from opening a harness: those of its settings, and with settings that
can be read those of the first catalog that cannot be registered. -/
inductive Escape (folder : Folder) (env : Environment) (config : Option Path)
    (catalogs : List Path) (issued : Nat) : Mishap → Prop
  | settings {m : Mishap} (escapes : SettingsEscape folder env config m) :
      Escape folder env config catalogs issued m
  | catalog {s : Settings} {before after : List Path} {path : Path} {h : Harness} {m : Mishap}
      (read : Opening.settings folder env config = .ok s)
      (listed : s.catalogs ++ catalogs = before ++ path :: after)
      (registered : registerAll folder (bare s issued) before = .ok h)
      (escapes : Catalog.FileEscape folder path m) : Escape folder env config catalogs issued m

/-- Settings and the harness that is made of them. -/
def made (folder : Folder) (env : Environment) (config : Option Path) (catalogs : List Path)
    (issued : Nat) : Except Failure (Settings × Harness) := do
  let s ← settings folder env config
  return (s, ← harness folder s catalogs issued)

theorem escapes_made_iff :
    Escapes (made folder env config catalogs issued) m ↔
      Escape folder env config catalogs issued m := by
  unfold made
  rw [Escapes.bind_iff, escapes_settings_iff]
  constructor
  · rintro (escapes | ⟨s, read, others⟩)
    · exact .settings escapes
    · obtain ⟨before, path, after, h, listed, registered, escapes⟩ :=
        escapes_registerAll_iff.mp (Escapes.bind_pure_iff.mp others)
      exact .catalog read listed registered escapes
  · rintro (escapes | ⟨read, listed, registered, escapes⟩)
    · exact .inl escapes
    · refine .inr ⟨_, read, Escapes.bind_pure_iff.mpr ?_⟩
      exact escapes_registerAll_iff.mpr ⟨_, _, _, _, listed, registered, escapes⟩

/-- What a command is told of what has been made. -/
theorem run_eq :
    run folder env config catalogs issued =
      match made folder env config catalogs issued with
      | .ok (s, h) => .opened s h
      | .error failure => if failure.isTold then .refused failure.message else .crashed failure :=
  rfl

/-- A failure is one of the settings, or of a catalog with settings that can be read. -/
def Fails (folder : Folder) (env : Environment) (config : Option Path) (catalogs : List Path)
    (issued : Nat) (failure : Failure) : Prop :=
  settings folder env config = .error failure ∨
    ∃ s, settings folder env config = .ok s ∧
      harness folder s catalogs issued = .error failure

theorem made_eq_error {failure : Failure} :
    made folder env config catalogs issued = .error failure ↔
      Fails folder env config catalogs issued failure := by
  unfold made Fails
  rw [Except.bind_eq_error]
  refine or_congr_right (exists_congr fun s => and_congr_right fun _ => ?_)
  rw [Except.bind_eq_error]
  exact or_iff_left fun ⟨_, _, failed⟩ => (nomatch failed)

theorem made_eq_ok {s : Settings} :
    made folder env config catalogs issued = .ok (s, h) ↔
      settings folder env config = .ok s ∧ harness folder s catalogs issued = .ok h := by
  unfold made
  rw [Except.bind_eq_ok]
  constructor
  · rintro ⟨s', read, rest⟩
    obtain ⟨h', registered, same⟩ := Except.bind_pure_eq_ok.mp rest
    cases same
    exact ⟨read, registered⟩
  · rintro ⟨read, registered⟩
    exact ⟨s, read, Except.bind_pure_eq_ok.mpr ⟨h, registered, rfl⟩⟩

theorem kind_of_escape (escape : Escape folder env config catalogs issued m) :
    m.kind ∈ Escapes.kinds := by
  cases escape with
  | settings escapes =>
      cases config with
      | none => exact Settings.kind_of_tooDeep escapes
      | some path => exact Settings.kind_of_fileEscape escapes
  | catalog _ _ _ escapes => exact (Catalog.kind_of_fileEscape escapes).1

theorem run_of_escape (escape : Escape folder env config catalogs issued m) :
    run folder env config catalogs issued = .crashed (.mishap m) := by
  obtain ⟨failed, untold⟩ := escapes_made_iff.mpr escape
  rw [run_eq, failed]
  dsimp only
  rw [Failure.isTold_mishap_eq_false_iff.mpr untold]
  rfl

/-- Opening a harness gives one, or it is refused with the text of what is wrong, exactly if no
mishap escapes; one that escapes is all that comes of it, and is of one of a few kinds. -/
theorem reported_unless_escaping (folder : Folder) (env : Environment) (config : Option Path)
    (catalogs : List Path) (issued : Nat) :
    ((∃ s h, settings folder env config = .ok s ∧ harness folder s catalogs issued = .ok h ∧
          run folder env config catalogs issued = .opened s h) ∨
        ∃ failure, Fails folder env config catalogs issued failure ∧ failure.isTold = true ∧
          run folder env config catalogs issued = .refused failure.message) ∧
        (∀ m, ¬ Escape folder env config catalogs issued m) ∨
      ∃ m, Escape folder env config catalogs issued m ∧ m.kind ∈ Escapes.kinds ∧
        run folder env config catalogs issued = .crashed (.mishap m) := by
  rw [run_eq]
  cases outcome : made folder env config catalogs issued with
  | ok given =>
      obtain ⟨s, h⟩ := given
      obtain ⟨read, registered⟩ := made_eq_ok.mp outcome
      refine .inl ⟨.inl ⟨s, h, read, registered, rfl⟩, fun m escape => ?_⟩
      obtain ⟨failed, _⟩ := escapes_made_iff.mpr escape
      cases outcome.symm.trans failed
  | error failure =>
      dsimp only
      cases told : failure.isTold with
      | true =>
          refine .inl ⟨.inr ⟨failure, made_eq_error.mp outcome, told, rfl⟩, fun m escape => ?_⟩
          obtain ⟨failed, untold⟩ := escapes_made_iff.mpr escape
          cases outcome.symm.trans failed
          exact Bool.false_ne_true ((Failure.isTold_mishap_eq_false_iff.mpr untold).symm.trans told)
      | false =>
          obtain ⟨m, rfl, untold⟩ := Failure.isTold_eq_false_iff.mp told
          have escape := escapes_made_iff.mp ⟨outcome, untold⟩
          exact .inr ⟨m, escape, kind_of_escape escape, rfl⟩

/-- A folder whose only file is an open bracket. -/
def bracketed : Folder := Folder.ofTexts [("c.yaml", "[")]

/-- A file of settings that is no YAML is neither opened nor refused. -/
theorem escapes_bracket :
    ¬ ∀ (folder : Folder) (env : Environment) (config : Option Path) (catalogs : List Path)
        (issued : Nat), (∃ s h, run folder env config catalogs issued = .opened s h) ∨
      ∃ reason, run folder env config catalogs issued = .refused reason := by
  intro reported
  have holds : bracketed.TextAt (Path.ofText "c.yaml") "[" := ⟨by decide +kernel, by decide +kernel⟩
  have noYaml : Yaml.loadShared "" "[".toList = .error .malformed := rfl
  have escape : Settings.FileEscape bracketed [] (Path.ofText "c.yaml") Yaml.Refusal.notYaml :=
    .text holds noYaml (by decide)
  have crashed : run bracketed [] (some (Path.ofText "c.yaml")) [] 0 =
      .crashed (.mishap Yaml.Refusal.notYaml) := run_of_escape (.settings escape)
  obtain ⟨s, h, opened⟩ | ⟨reason, refused⟩ :=
    reported bracketed [] (some (Path.ofText "c.yaml")) [] 0
  · cases crashed.symm.trans opened
  · cases crashed.symm.trans refused

end Opening

end TaintFlow
