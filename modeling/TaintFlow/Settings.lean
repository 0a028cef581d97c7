import TaintFlow.Harness.Basic
import TaintFlow.Folder.Basic
import TaintFlow.Text.Case
import TaintFlow.Environment
import TaintFlow.Json.Reader
import TaintFlow.Yaml.Failure

/-!
# Settings

What a user of the command line can settle in a file or in the environment.
-/

namespace TaintFlow

/-- How notices are written. -/
structure LoggingSettings where
  level : String := "INFO"
  asJson : Bool := false

/-- Whether and where spans are sent. -/
structure TelemetrySettings where
  enabled : Bool := false
  endpoint : String := "localhost:4317"
  deployment : String := "dev"

/-- All settings. -/
structure Settings where
  harness : HarnessConfig := {}
  logging : LoggingSettings := {}
  telemetry : TelemetrySettings := {}
  metricsEnabled : Bool := true
  /-- The file that runs are recorded in; without one they are kept in memory. -/
  ledger : Option Path := none
  catalogs : List Path := []
  includeCorpus : Bool := true

namespace Settings

/-- Read a group of settings, which is a mapping. -/
def readGroup {α : Type} (read : Payload.Entries → Checked α) : Payload → Checked α
  | .map entries => read entries
  | _ => Checked.issue .modelType

/-- Read a path. -/
def readPath : Payload → Checked Path
  | .text s => .ok (Path.ofText s)
  | _ => Checked.issue .pathType

/-- Read the settings of notices; the level is taken in capitals. -/
def readLogging (entries : Payload.Entries) : Checked LoggingSettings :=
  let usual : LoggingSettings := {}
  (Checked.apply · (Payload.fieldOr "json_output" usual.asJson Payload.readTruth entries)) <|
  (Payload.fieldOr "level" usual.level
    (fun p => (Payload.readText p).map Text.upper) entries).map LoggingSettings.mk

/-- Read the settings of spans. -/
def readTelemetry (entries : Payload.Entries) : Checked TelemetrySettings :=
  let usual : TelemetrySettings := {}
  (Checked.apply · (Payload.fieldOr "env" usual.deployment Payload.readText entries)) <|
  (Checked.apply · (Payload.fieldOr "endpoint" usual.endpoint Payload.readText entries)) <|
  (Payload.fieldOr "enabled" usual.enabled Payload.readTruth entries).map TelemetrySettings.mk

/-- Read all settings; what is not given keeps its default. -/
def read (entries : Payload.Entries) : Checked Settings :=
  let group {α : Type} (name : String) (usual : α) (readOne : Payload.Entries → Checked α) :
      Checked α := Payload.fieldOr name usual (readGroup readOne) entries
  (Checked.apply · (Payload.fieldOr "include_corpus" true Payload.readTruth entries)) <|
  (Checked.apply · (Payload.fieldOr "catalogs" [] (Payload.readEach readPath) entries)) <|
  (Checked.apply · (group "ledger" none
    (Payload.fieldOr "path" none (Payload.readOptional readPath)))) <|
  (Checked.apply · (group "metrics" true (Payload.fieldOr "enabled" true Payload.readTruth))) <|
  (Checked.apply · (group "telemetry" {} readTelemetry)) <|
  (Checked.apply · (group "logging" {} readLogging)) <|
  (group "harness" {} HarnessConfig.read).map Settings.mk

end Settings

/-!
## Where settings come from

Settings are given as a mapping, and the environment fills in what the mapping
leaves open.  A variable holds a whole group of settings as JSON, or a single
setting as text; a single one wins over its group.  Their names are compared
without regard to case.

`Settings.ofEnvironment` reads the environment alone.  `Settings.ofFile` reads a
file, into which the overrides of `Environment.overlay` have been written, and
takes the paths of catalogs from the folder of the file.
-/

namespace Environment

/-- The variables by their names in lower case. -/
def lowered (env : Environment) : Environment :=
  Assoc.ofList (env.map fun (name, text) => (Text.lower name, text))

/-- Write a text at a path; nothing is written below what is not a mapping. -/
def fillAt (text : String) (key : String) : List String → Payload.Entries → Payload.Entries
  | [], m => Payload.Entries.put (.text key) (.text text) m
  | next :: rest, m =>
    match Payload.Entries.text? key m with
    | some (.map entries) =>
      Payload.Entries.put (.text key) (.map (fillAt text next rest entries)) m
    | some _ => m
    | none => Payload.Entries.put (.text key) (.map (fillAt text next rest [])) m

/-- The name of the variable of a setting, in lower case. -/
def variableOf (setting : String) : String := "taintchain_" ++ setting

/-- The single settings of a group, by the variables below that of the group. -/
def singles (env : Environment) (group : String) : Payload.Entries :=
  let start := (variableOf group ++ "__").toList
  env.foldl (fun m (name, text) =>
    if start.isPrefixOf name.toList then
      let (key, rest) := keysOf (name.toList.drop start.length)
      fillAt text key rest m
    else m) []

end Environment

namespace Settings

/-- A mapping over another one: where both have a mapping at a key these are laid over each
other, and elsewhere the upper one wins. -/
def layOver : Nat → Payload.Entries → Payload.Entries → Payload.Entries
  | 0, _, upper => upper
  | fuel + 1, lower, upper =>
    upper.foldl (fun m (key, value) =>
      match Payload.Entries.find? key m, value with
      | some (.map below), .map above =>
        Payload.Entries.put key (.map (layOver fuel below above)) m
      | _, _ => Payload.Entries.put key value m) lower

mutual

/-- How deep a payload is nested in mappings. -/
def depth : Payload → Nat
  | .map entries => depthIn entries + 1
  | _ => 0

/-- How deep the values of a mapping are nested. -/
def depthIn : List (Payload × Payload) → Nat
  | [] => 0
  | (_, value) :: rest => max (depth value) (depthIn rest)

end

/-- One mapping over another. -/
def laidOver (upper lower : Payload.Entries) : Payload.Entries :=
  layOver (depthIn upper + 1) lower upper

/-- The groups of settings, each with the names of its settings. -/
def groups : List (String × List String) :=
  [("harness", ["default_timeout_s", "boundary_timeout_s", "verify_store_loads"]),
   ("logging", ["level", "json_output"]),
   ("telemetry", ["enabled", "endpoint", "env"]),
   ("metrics", ["enabled"]),
   ("ledger", ["path"]),
   ("catalogs", [])]

/-- The spelling of a name among those known, if only the case differs. -/
def knownName (known : List String) (key : Payload) : Payload :=
  match key with
  | .text name =>
    .text ((known.find? fun k => k == Text.lower name).getD name)
  | other => other

/-- The names of a mapping in the spelling that is known. -/
def knownNames (known : List String) (m : Payload.Entries) : Payload.Entries :=
  Payload.Entries.ofList (m.map fun (key, value) => (knownName known key, value))

/-- A group whose variable does not hold JSON. -/
def badGroup (name : String) : Mishap :=
  ⟨"SettingsError", s!"error parsing value for field \"{name}\" from source \"EnvSettingsSource\""⟩

/-- A group whose variable holds JSON that is nested too deep where a bracket stands. -/
def deepGroup (bracket : Char) : Mishap :=
  let what := if bracket = '[' then "array" else "object"
  .overDeep s!" while decoding a JSON {what} from a unicode string"

/-- A group of settings as the environment gives it. -/
def groupIn (env : Environment) (name : String) : Except Mishap (Option Payload) :=
  let singles := env.singles name
  match env.find? (Environment.variableOf name) with
  | none => .ok (if singles.isEmpty then none else some (.map singles))
  | some text =>
    match Json.overDeep? text with
    | some bracket => .error (deepGroup bracket)
    | none =>
      match (Json.ofString? text).map Payload.ofJson with
      | none => .error (badGroup name)
      | some .null => .ok none
      | some (.map entries) => .ok (some (.map (laidOver singles entries)))
      | some other => .ok (some other)

/-- The settings that the environment gives. -/
def inEnvironment (env : Environment) : Except Mishap Payload.Entries := do
  let env := env.lowered
  let given ← groups.mapM fun (name, known) => do
    match ← groupIn env name with
    | none => return []
    | some (.map entries) => return [(.text name, .map (knownNames known entries))]
    | some other => return [(.text name, other)]
  let corpus := match env.find? (Environment.variableOf "include_corpus") with
    | some text => [(.text "include_corpus", .text text)]
    | none => []
  return given.flatten ++ corpus

/-- The settings that a mapping gives, under their own names. -/
def named (m : Payload.Entries) : Payload.Entries :=
  let known := groups.map Prod.fst ++ ["include_corpus"]
  let exact := m.filter fun (key, _) => knownName known key == key
  let other := m.filter fun (key, _) => knownName known key != key
  exact ++ (knownNames known other).filter fun (key, _) => (Payload.Entries.find? key exact).isNone

/-- The name of the model of settings in messages. -/
def model : String := "TaintChainSettings"

/-- The settings of the environment alone. -/
def ofEnvironment (env : Environment) : Except Failure Settings := do
  let given ← (inEnvironment env).mapError .mishap
  (Checked.named model (read given)).mapError .invalid

/-- Does every key of a mapping spell a name? -/
def allNamed (m : Payload.Entries) : Bool := m.all fun (key, _) => key matches .text _

/-- The settings of a mapping, with the environment below it. -/
def ofEntries (env : Environment) (m : Payload.Entries) : Except Failure Settings := do
  unless allNamed m do throw (.mishap (.badType "keywords must be strings"))
  match inEnvironment env with
  | .error mishap =>
    throw (if mishap.isOverDeep then .mishap mishap else .invalid ⟨model, [⟨[], .refused⟩]⟩)
  | .ok below => (Checked.named model (read (laidOver (named m) below))).mapError .invalid

/-- The section of a loaded file that holds the settings. -/
def sectionOf (loaded : Shared Draft) : Except Mishap (Shared Draft.Entries) :=
  match loaded.parts.entries? loaded.body with
  | some entries =>
    match Payload.Entries.text? "taintchain" entries with
    | none => .ok ⟨entries, loaded.parts⟩
    | some inner =>
      match loaded.parts.entries? inner with
      | some settings => .ok ⟨settings, loaded.parts⟩
      | none => .error (.badValue "taintchain config section must be a mapping")
  | none =>
    if loaded.unfolded.isPresent then
      .error (.badValue "config file must contain a top-level mapping")
    else .ok ⟨[], []⟩

/-- The settings of a text of a file and of the environment. -/
def ofText (env : Environment) (text : String) : Except Failure Settings := do
  let loaded ← (Yaml.loadShared "" text.toList).mapError Yaml.Refusal.toFailure
  let given ← (sectionOf loaded).mapError .mishap
  let given ← (env.overlay given).mapError Yaml.Refusal.toFailure
  ofEntries env given.entries

/-- Take the paths of catalogs from a folder. -/
def resolve (folder : Path) (s : Settings) : Settings :=
  { s with catalogs := s.catalogs.map folder.join }

/-- The settings of a file and of the environment. -/
def ofFile (folder : Folder) (env : Environment) (path : Path) : Except Failure Settings := do
  unless ← (folder.exists? path).mapError .mishap do
    throw (.mishap ⟨"FileNotFoundError", s!"config file not found: {path.text}"⟩)
  let text ← (folder.readText path).mapError .mishap
  return (← ofText env text).resolve path.parent

end Settings

end TaintFlow
