import TaintFlow.Yaml.Document
import TaintFlow.Text.Case
import TaintFlow.Data.Assoc

/-!
# Overrides from the environment

A variable whose name starts with `TAINTCHAIN_` writes one value into nested
settings.  The rest of the name, in lower case, is the path to the value, with
two low lines between its keys.  Variables are applied in order, so a later one
wins over an earlier one wherever their paths meet.  A write below a path that
leads through a shared part of the settings is a write into that part.
-/

namespace TaintFlow

/-- The variables of an environment, in order. -/
abbrev Environment := Assoc String String

namespace Environment

/-- The start of the names that count. -/
def nameStart : List Char := "TAINTCHAIN_".toList

/-- The parts of a text between pairs of low lines; there is at least one. -/
def splitPath : List Char → List Char × List (List Char)
  | [] => ([], [])
  | '_' :: '_' :: rest =>
    let (first, more) := splitPath rest
    ([], first :: more)
  | c :: rest =>
    let (first, more) := splitPath rest
    (c :: first, more)

/-- A path of keys: the first one, and those inside it. -/
abbrev KeyPath := String × List String

/-- The keys that a text spells. -/
def keysOf (text : List Char) : KeyPath :=
  let (first, more) := splitPath text
  (String.ofList first, more.map String.ofList)

/-- The path that the name of a variable spells, if the variable counts. -/
def pathOf? (name : String) : Option KeyPath :=
  if nameStart.isPrefixOf name.toList then
    some (keysOf (Text.lower (String.ofList (name.toList.drop nameStart.length))).toList)
  else none

/-- The value that the text of a variable stands for; a text that stands for nothing is kept. -/
def valueOf (name text : String) : Except Yaml.Refusal (Shared Draft) := do
  match ← Yaml.loadShared name text.toList with
  | ⟨.whole .null, _⟩ => return ⟨.whole (.text text), []⟩
  | value => return value

/-- What a write changes: the mapping that it starts from, or a shared part on the way. -/
inductive Change where
  | here (entries : Draft.Entries)
  | inPart (anchor : Anchor) (entries : Draft.Entries)

/-- Write a value at a path, making the mappings on the way; what is no mapping there gives way
to one. -/
def writeAt (parts : Parts) (value : Draft) (key : String) : List String → Draft.Entries → Change
  | [], m => .here (Payload.Entries.put (.text key) value m)
  | next :: rest, m =>
    let child := Payload.Entries.text? key m
    let inner := child.bind parts.entries?
    match writeAt parts value next rest (inner.getD []), inner, child with
    | .here entries, some _, some (.part anchor) => .inPart anchor entries
    | .here entries, _, _ => .here (Payload.Entries.put (.text key) (.map entries) m)
    | change, _, _ => change

/-- Write a value at a path of settings.  The parts of the value come first, since parts that
are there can only come to refer to them. -/
def write (value : Shared Draft) (path : KeyPath) (m : Shared Draft.Entries) :
    Shared Draft.Entries :=
  let parts := value.parts ++ m.parts
  match writeAt parts value.body path.1 path.2 m.body with
  | .here entries => ⟨entries, parts⟩
  | .inPart anchor entries => ⟨m.body, parts.put anchor (.map entries)⟩

/-- Apply one variable. -/
def applyOne (m : Shared Draft.Entries) (variable_ : String × String) :
    Except Yaml.Refusal (Shared Draft.Entries) :=
  match pathOf? variable_.1 with
  | none => .ok m
  | some path => (valueOf variable_.1 variable_.2).map fun value => write value path m

/-- Settings with the variables of an environment written into them. -/
def overlay (env : Environment) (m : Shared Draft.Entries) :
    Except Yaml.Refusal (Shared Draft.Entries) :=
  env.foldlM applyOne m

end Environment

end TaintFlow
