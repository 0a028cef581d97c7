import TaintFlow.Settings
import TaintFlow.Catalog
import TaintFlow.Corpus

/-!
# Opening a harness

Every command starts from the settings, from which a harness is made: the
corpus, if it is wanted, and then the chains of all catalogs.  What is wrong
with the settings or a catalog is told to the user.
-/

namespace TaintFlow

/-- The outcome of opening a harness: the settings and the harness, a reason that is told to the
user, or a failure that nothing takes care of. -/
inductive Opening where
  | opened (settings : Settings) (h : Harness)
  | refused (reason : String)
  | crashed (failure : Failure)

namespace Failure

/-- The kinds of mishaps that opening a harness takes care of. -/
def toldKinds : List String :=
  ["FileNotFoundError", "ValueError", "SettingsError", "UnicodeDecodeError"]

/-- Is the failure told to the user? -/
def isTold : Failure → Bool
  | fault _ | invalid _ => true
  | mishap m => toldKinds.contains m.kind

end Failure

namespace Opening

/-- The settings of a file, or those of the environment alone. -/
def settings (folder : Folder) (env : Environment) :
    Option Path → Except Failure Settings
  | none => Settings.ofEnvironment env
  | some path => Settings.ofFile folder env path

/-- Define the chains of catalogs, one catalog after the other. -/
def registerAll (folder : Folder) (h : Harness) : List Path → Except Failure Harness
  | [] => .ok h
  | path :: rest =>
    match h.registerCatalog folder path with
    | (.ok _, h) => registerAll folder h rest
    | (.error failure, _) => .error failure

/-- The harness of settings and further catalogs; `issued` ids have been made up before. -/
def harness (folder : Folder) (s : Settings) (catalogs : List Path) (issued : Nat) :
    Except Failure Harness :=
  let h := Harness.empty s.harness
  let h := if s.includeCorpus then Corpus.installed h else h
  registerAll folder { h with issued } (s.catalogs ++ catalogs)

/-- Open a harness. -/
def run (folder : Folder) (env : Environment) (config : Option Path) (catalogs : List Path)
    (issued : Nat) : Opening :=
  let outcome : Except Failure (Settings × Harness) := do
    let s ← settings folder env config
    return (s, ← harness folder s catalogs issued)
  match outcome with
  | .ok (s, h) => opened s h
  | .error failure => if failure.isTold then refused failure.message else crashed failure

end Opening

end TaintFlow
