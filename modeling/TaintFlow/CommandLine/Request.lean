import TaintFlow.Folder.Basic
import TaintFlow.Mishap
import TaintFlow.SinkCategory
import TaintFlow.Number.Reading
import TaintFlow.Text.Blank
import TaintFlow.Text.Case

/-!
# Requests

The arguments of the command line as a request.  An argument list that is no
request is an error of usage, whatever is wrong with it, unless the path of a
file holds a null byte, which no file system takes.
-/

namespace TaintFlow

/-- What can be asked for. -/
inductive Command where
  | list | run | groundTruth
  deriving DecidableEq

namespace Command

/-- The command of a word. -/
def ofWord? : String → Option Command
  | "list" => some list
  | "run" => some run
  | "ground-truth" => some groundTruth
  | _ => none

/-- The options of a command, and whether each takes a value. -/
def options : Command → List (String × Bool)
  | run =>
    [("--chain", true), ("--category", true), ("--session-id", true), ("--repeat", true),
     ("--json", false), ("--ledger", true), ("--catalog", true), ("--config", true),
     ("--metrics-out", true)]
  | list | groundTruth => [("--category", true), ("--catalog", true), ("--config", true)]

end Command

/-- A request: a command and what its options say. -/
structure Request where
  command : Command
  category : Option SinkCategory := none
  catalogs : List Path := []
  config : Option Path := none
  chains : List String := []
  session : String := "cli-session"
  repeats : Nat := 1
  asJson : Bool := false
  ledger : Option Path := none
  metricsOut : Option Path := none

namespace Request

/-- The options that were given with their values, in order; a switch has an empty one. -/
abbrev Given := List (String × String)

/-- An argument with an equals sign as an option and its value. -/
def splitValue (arg : String) : String × Option String :=
  let name := arg.toList.takeWhile (· ≠ '=')
  if name.length = arg.length then (arg, none)
  else (String.ofList name, some (String.ofList (arg.toList.drop (name.length + 1))))

/-- The options of an argument list; `none` if it is not one for a command. -/
def given? (known : List (String × Bool)) : List String → Option Given
  | [] => some []
  | ["--"] => some []
  | [arg] =>
    let (name, value) := splitValue arg
    match (known.find? (·.1 == name)).map Prod.snd, value with
    | some true, some value => some [(name, value)]
    | some false, none => some [(name, "")]
    | _, _ => none
  | arg :: next :: rest =>
    let (name, value) := splitValue arg
    match (known.find? (·.1 == name)).map Prod.snd, value with
    | some true, some value => (given? known (next :: rest)).map ((name, value) :: ·)
    | some true, none => (given? known rest).map ((name, next) :: ·)
    | some false, none => (given? known (next :: rest)).map ((name, "") :: ·)
    | _, _ => none

/-- All values of an option. -/
def valuesOf (name : String) (given : Given) : List String :=
  (given.filter (·.1 == name)).map Prod.snd

/-- The value of an option that counts: the last one. -/
def valueOf? (name : String) (given : Given) : Option String := (valuesOf name given).getLast?

/-- The category of a word in any case. -/
def categoryOf? (word : String) : Option SinkCategory :=
  SinkCategory.list.find? fun c => c.text == Text.folded word

/-- A number of repetitions, which is at least one. -/
def repeatsOf? (word : String) : Option Nat :=
  match Number.readInt? ((Text.strip word.toList).map Text.plainDigit) with
  | some n => if 1 ≤ n then some n.toNat else none
  | none => none

/-- Why an argument list is no request. -/
inductive Misuse where
  | usage
  | nullByte
  deriving DecidableEq

/-- Does a text hold a null byte? -/
def hasNull (word : String) : Bool := word.toList.contains '\x00'

/-- The mishap of a path with a null byte. -/
def nullByte : Mishap := .badValue "embedded null byte"

/-- A path that a file or a folder may have. -/
def pathOf (word : String) : Except Misuse Path :=
  if hasNull word then .error .nullByte else .ok (Path.ofText word)

/-- The path of a file: any path but that of a folder that is there. -/
def fileOf (folder : Folder) (word : String) : Except Misuse Path := do
  let path ← pathOf word
  if word ≠ "" ∧ folder.hasFolder path then throw .usage else return path

/-- A value that is there, or a misuse. -/
def orUsage {α : Type} : Option α → Except Misuse α
  | some a => .ok a
  | none => .error .usage

/-- Take in what one option says. -/
def withOption (folder : Folder) (given : Given) (r : Request) (name : String) :
    Except Misuse Request := do
  let word := (valueOf? name given).getD ""
  match name with
  | "--category" => return { r with category := some (← orUsage (categoryOf? word)) }
  | "--repeat" => return { r with repeats := ← orUsage (repeatsOf? word) }
  | "--catalog" => return { r with catalogs := ← (valuesOf name given).mapM (fileOf folder) }
  | "--metrics-out" => return { r with metricsOut := some (← fileOf folder word) }
  | "--config" => return { r with config := some (← pathOf word) }
  | "--ledger" => return { r with ledger := some (← pathOf word) }
  | "--chain" => return { r with chains := valuesOf name given }
  | "--session-id" => return { r with session := word }
  | "--json" => return { r with asJson := true }
  | _ => return r

/-- The request of a command's options, taken in the order in which they first come. -/
def ofGiven (folder : Folder) (command : Command) (given : Given) : Except Misuse Request :=
  (given.map Prod.fst).eraseDups.foldlM (withOption folder given) { command }

/-- The request of an argument list: a command, and then its options. -/
def ofArguments (folder : Folder) (args : List String) : Except Misuse Request := do
  let args := match args with
    | "--" :: rest => rest
    | _ => args
  match args with
  | [] => throw .usage
  | word :: rest =>
    let command ← orUsage (Command.ofWord? word)
    ofGiven folder command (← orUsage (given? command.options rest))

end Request

end TaintFlow
