import TaintFlow.Yaml.Document
import TaintFlow.Fault

/-!
# Refused texts as failures

A text that is no YAML is a failure of its own kind, whose text is left to the
reader of YAML; a scalar that cannot be converted fails as its conversion does.
-/

namespace TaintFlow.Yaml.Refusal

/-- The mishap of a text that is no YAML. -/
def notYaml : Mishap := ⟨"YAMLError", ""⟩

/-- A refusal as a mishap. -/
def toMishap : Refusal → Mishap
  | malformed => notYaml
  | mishap m => m

/-- A refusal as a failure. -/
def toFailure (why : Refusal) : Failure := .mishap why.toMishap

end TaintFlow.Yaml.Refusal
