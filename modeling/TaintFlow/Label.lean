import TaintFlow.Data.SortedSet
import TaintFlow.Data.Enumeration

/-!
# Provenance labels

A label names where a value came from: an origin, the kind of input it is, and
how far that input is trusted.  Labels are ordered by these three names, which
is also the order in which a set of labels is listed.
-/

namespace TaintFlow

/-- The kinds of external input. -/
inductive SourceCategory where
  | httpBody | httpQuery | httpHeader | httpParam | cookie | session | file | websocket
  | externalApi | env | dns | socket | webhook | jwtClaim | samlAssertion
  deriving DecidableEq

namespace SourceCategory

/-- Every category, in the order of declaration. -/
def list : List SourceCategory :=
  [.httpBody, .httpQuery, .httpHeader, .httpParam, .cookie, .session, .file, .websocket,
   .externalApi, .env, .dns, .socket, .webhook, .jwtClaim, .samlAssertion]

/-- The name of a category. -/
def text : SourceCategory → String
  | .httpBody => "http_body"
  | .httpQuery => "http_query"
  | .httpHeader => "http_header"
  | .httpParam => "http_param"
  | .cookie => "cookie"
  | .session => "session"
  | .file => "file"
  | .websocket => "websocket"
  | .externalApi => "external_api"
  | .env => "env"
  | .dns => "dns"
  | .socket => "socket"
  | .webhook => "webhook"
  | .jwtClaim => "jwt_claim"
  | .samlAssertion => "saml_assertion"

instance : Enumeration SourceCategory where
  all := list
  name := text
  mem_all a := by cases a <;> decide
  name_injective a b := by cases a <;> cases b <;> simp [text]

end SourceCategory

/-- How far an input is trusted. -/
inductive TrustLevel where
  | untrusted | semiTrusted
  deriving DecidableEq

namespace TrustLevel

/-- The name of a trust level. -/
def text : TrustLevel → String
  | .untrusted => "untrusted"
  | .semiTrusted => "semi_trusted"

instance : Enumeration TrustLevel where
  all := [.untrusted, .semiTrusted]
  name := text
  mem_all a := by cases a <;> decide
  name_injective a b := by cases a <;> cases b <;> simp [text]

end TrustLevel

/-- A tag that says where a value came from. -/
structure Label where
  origin : String
  category : SourceCategory
  trust : TrustLevel := .untrusted
  deriving DecidableEq

namespace Label

/-- The short text of a label: its category and its origin. -/
def text (label : Label) : String := label.category.text ++ ":" ++ label.origin

instance : SortKey Label where
  key label := [label.origin, label.category.text, label.trust.text]
  key_injective a b h := by
    simp only [List.cons.injEq, and_true] at h
    obtain ⟨origin, category, trust⟩ := h
    have sameCategory := Enumeration.name_injective a.category b.category category
    have sameTrust := Enumeration.name_injective a.trust b.trust trust
    cases a
    cases b
    simp_all

end Label

/-- A set of labels. -/
abbrev LabelSet := SortedSet Label

namespace LabelSet

/-- The short texts of the labels, in the order of texts. -/
def texts (labels : LabelSet) : List String :=
  (labels.toList.map Label.text).mergeSort fun a b => !decide (b < a)

end LabelSet

end TaintFlow
