import TaintFlow.CommandLine.Basic

/-!
# The files of a command

Which files a command may look at.  Those that its arguments name are known at
once, and with them the settings tell the others.
-/

namespace TaintFlow.CommandLine

/-- The paths of an argument list: of texts, and of ledgers. -/
structure Wanted where
  texts : List Path := []
  ledgers : List Path := []

/-- The paths that arguments name. -/
def namedPaths (args : List String) : Wanted :=
  let given := match args with
    | word :: rest => (Command.ofWord? word).bind fun c => Request.given? c.options rest
    | [] => none
  match given with
  | none => {}
  | some given =>
    let valuesOf (name : String) : List Path := (Request.valuesOf name given).map Path.ofText
    { texts := valuesOf "--config" ++ valuesOf "--catalog" ++ valuesOf "--metrics-out"
      ledgers := valuesOf "--ledger" }

/-- The paths that the settings name. -/
def settledPaths (d : Desk) (args : List String) : Wanted :=
  match Request.ofArguments d.folder args with
  | .error _ => {}
  | .ok request =>
    match Opening.settings d.folder d.env request.config with
    | .error _ => {}
    | .ok s => { texts := s.catalogs, ledgers := s.ledger.toList }

end TaintFlow.CommandLine
