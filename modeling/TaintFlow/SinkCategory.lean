import TaintFlow.Data.Enumeration
import TaintFlow.Data.SortedSet

/-!
# Sink categories

The kinds of unsafe consumers, one for each kind of injection.
-/

namespace TaintFlow

/-- The kinds of unsafe consumers. -/
inductive SinkCategory where
  | command | sql | nosql | path | template | xss | ssrf | xxe | log | email
  deriving DecidableEq

namespace SinkCategory

/-- Every category, in the order of declaration. -/
def list : List SinkCategory :=
  [.command, .sql, .nosql, .path, .template, .xss, .ssrf, .xxe, .log, .email]

/-- The name of a category. -/
def text : SinkCategory → String
  | .command => "command"
  | .sql => "sql"
  | .nosql => "nosql"
  | .path => "path"
  | .template => "template"
  | .xss => "xss"
  | .ssrf => "ssrf"
  | .xxe => "xxe"
  | .log => "log"
  | .email => "email"

instance : Enumeration SinkCategory where
  all := list
  name := text
  mem_all a := by cases a <;> decide
  name_injective a b := by cases a <;> cases b <;> simp [text]

instance : SortKey SinkCategory where
  key category := [category.text]
  key_injective a b h := Enumeration.name_injective a b (List.cons.inj h).1

end SinkCategory

end TaintFlow
