import TaintFlow.Yaml.Cursor

/-!
# Tokens of YAML

The signs and words that a YAML text is made of.  Where indentation alone opens
or closes a collection, or a mapping's key is recognised only by the colon after
it, the row of tokens says so with a token of its own.
-/

namespace TaintFlow.Yaml

/-- What a line that starts with a percent sign lays down. -/
inductive Directive where
  | version (major minor : Nat)
  | handle (name meaning : String)
  | other
  deriving DecidableEq

/-- A token.  A `broken` token stands where the text could not be read any further. -/
inductive Token where
  | directive (d : Directive)
  | documentStart
  | documentEnd
  | blockSequence
  | blockMapping
  | blockEnd
  | flowSequence
  | flowSequenceEnd
  | flowMapping
  | flowMappingEnd
  | blockEntry
  | flowEntry
  | key
  | value
  | alias (name : String)
  | anchor (name : String)
  | tag (handle : Option String) (suffix : String)
  | scalar (text : String) (isPlain : Bool)
  | textEnd
  | broken (why : Refusal)
  deriving DecidableEq

end TaintFlow.Yaml
