import TaintFlow.Yaml.Document
import TaintFlow.Harness.Basic
import TaintFlow.Folder.Basic

/-!
# Catalogs

A catalog is a YAML mapping whose `chains` lists chains by their fields; a chain
may give its id as `id`.  The ids of a catalog are distinct.

`Catalog.parse` reads a text.  `Harness.registerCatalog` defines the chains of a
file one after the other, and stops at the first that cannot be defined.
-/

namespace TaintFlow

namespace Catalog

/-- An entry that gives its id as `id` has it as the id of a chain. -/
def withId (entry : Payload) : Payload :=
  match entry with
  | .map fields =>
    match Payload.Entries.text? "chain_id" fields, Payload.Entries.text? "id" fields with
    | none, some id =>
      .map ((.text "chain_id", id) :: fields.filter fun (key, _) => !key.same (.text "id"))
    | _, _ => entry
  | _ => entry

/-- Read the chains of a catalog's mapping. -/
def readChains (fields : Payload.Entries) : Checked (List Chain) :=
  match Payload.Entries.text? "chains" fields with
  | none => .ok []
  | some entries =>
    (Payload.readEach (fun entry => Chain.ofPayload (withId entry)) entries).under
      (.field "chains")

/-- The first id that two chains share. -/
def repeatedId? (seen : List String) : List Chain → Option String
  | [] => none
  | c :: rest => if seen.contains c.id then some c.id else repeatedId? (c.id :: seen) rest

/-- The chains of a loaded catalog; one that holds nothing has none. -/
def ofPayload (loaded : Payload) : Except CatalogFlaw (List Chain) :=
  if !loaded.isPresent then .ok []
  else
    match loaded with
    | .map fields =>
      match Checked.named "ChainCatalog" (readChains fields) with
      | .error what => .error (.invalid what)
      | .ok chains =>
        match repeatedId? [] chains with
        | some id => .error (.repeated id)
        | none => .ok chains
    | _ => .error .notMapping

/-- A flaw of a catalog as a failure. -/
def failed (origin : String) (flaw : CatalogFlaw) : Failure := .ofCause (.catalog origin flaw)

/-- Read the chains of a catalog's text; `origin` says where the text is from. -/
def parse (text : String) (origin : String := "<string>") : Except Failure (List Chain) :=
  match Yaml.load text.toList with
  | .error .malformed => .error (failed origin .unreadable)
  | .error (.mishap m) => .error (.mishap m)
  | .ok loaded => (ofPayload loaded).mapError (failed origin)

/-- Read the chains of a catalog's file. -/
def load (folder : Folder) (path : Path) : Except Failure (List Chain) := do
  unless ← (folder.exists? path).mapError .mishap do
    throw (.mishap ⟨"FileNotFoundError", s!"catalog file not found: {path.text}"⟩)
  let text ← (folder.readText path).mapError .mishap
  parse text path.text

end Catalog

namespace Harness

/-- Define chains one after the other: the handles of those that could be defined, the harness
that holds them, and why the next could not be. -/
def addChains (h : Harness) : List Chain → List ChainHandle × Harness × Option Fault
  | [] => ([], h, none)
  | c :: rest =>
    match h.addChain c with
    | .error fault => ([], h, some fault)
    | .ok (handle, h) =>
      let (handles, h, fault) := h.addChains rest
      (handle :: handles, h, fault)

/-- Define the chains of a catalog's file.  The harness that is handed back holds what was
defined before a failure. -/
def registerCatalog (h : Harness) (folder : Folder) (path : Path) :
    Except Failure (List ChainHandle) × Harness :=
  match Catalog.load folder path with
  | .error failure => (.error failure, h)
  | .ok chains =>
    match h.addChains chains with
    | (handles, h, none) => (.ok handles, h)
    | (_, h, some fault) => (.error (.fault fault), h)

end Harness

end TaintFlow
