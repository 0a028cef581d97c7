import TaintFlow.Yaml.Node
import TaintFlow.Yaml.Scalar.Conversion
import TaintFlow.Payload.Shared
import TaintFlow.Payload.Show

/-!
# Documents as payloads

`Yaml.load` takes a text to the payload of its only document, whose collections
with names are shared parts.  A mapping may take in the entries of others
through a merge key; its own entries come after these and win over them.

Where several parts of a document have no value, the first one is reported, and
a part of a collection counts as later than all that stands outside it.
-/

namespace TaintFlow.Yaml

/-- The outcome of taking a part of a document for a payload.  A refusal comes with its depth,
the number of collections that it is inside of. -/
abbrev Attempt (α : Type) := Except (Nat × Refusal) α

namespace Attempt

/-- Refuse a part at a depth. -/
def malformed {α : Type} (depth : Nat) : Attempt α := .error (depth, .malformed)

/-- Two outcomes together; of two refusals the shallower counts, and the first if neither is. -/
def both {α β : Type} : Attempt α → Attempt β → Attempt (α × β)
  | .ok a, .ok b => .ok (a, b)
  | .error e, .error f => .error (if f.1 < e.1 then f else e)
  | .error e, .ok _ => .error e
  | .ok _, .error f => .error f

/-- The outcome as that of a key: collections are not keys, whatever they hold. -/
def asKey (depth : Nat) : Attempt Draft → Attempt Payload
  | .ok (.whole key) => if key.unhashable?.isSome then malformed depth else .ok key
  | .ok _ => malformed depth
  | .error (inner, why) => if depth < inner then malformed depth else .error (inner, why)

end Attempt

/-- The entries of a mapping on their way to a payload: is a merge key misused, the entries
that are merged in, and the mapping's own. -/
structure Gathered where
  misused : Bool := false
  merged : Attempt Draft.Entries := .ok []
  own : Attempt Draft.Entries := .ok []

namespace Gathered

/-- All the entries, those merged in first. -/
def all (g : Gathered) : Attempt Draft.Entries :=
  (Attempt.both g.merged g.own).map fun (merged, own) => merged ++ own

/-- A misused merge key. -/
def bad : Gathered := { misused := true }

/-- Put entries in front of those merged in. -/
def mergeFirst (g other : Gathered) : Gathered :=
  { misused := g.misused || other.misused,
    merged := (Attempt.both g.all other.merged).map fun (a, b) => a ++ b,
    own := other.own }

/-- The entries as a mapping's, at a depth. -/
def toMap (depth : Nat) (g : Gathered) : Attempt Draft.Entries :=
  if g.misused then Attempt.malformed depth else g.all.map Payload.Entries.ofList

end Gathered

/-- Put a payload into its place among the members of a set: whole numbers that stand side by
side go up, any other member stays behind those before it. -/
def insertMember (item : Payload) : List Payload → List Payload
  | [] => [item]
  | first :: rest =>
    match item, first with
    | .int n, .int m => if n < m then item :: first :: rest else first :: insertMember item rest
    | _, _ => first :: insertMember item rest

/-- The set of payloads. -/
def setOf (items : List Payload) : Payload :=
  .set (items.foldl (fun members item => insertMember item members) [])

namespace Node

/-- The scalar that a node stands for, with its number: itself, or the one at the stand-in key of
a mapping. -/
def scalar? : Node → Option (String × Nat)
  | .scalar _ text serial => some (text, serial)
  | .sequence .. => none
  | .mapping _ entries => standIn? entries
  | .anchored _ node => scalar? node
where
  /-- The scalar at the first stand-in key. -/
  standIn? : List (Node × Node) → Option (String × Nat)
    | [] => none
    | (key, value) :: rest => if key.tag == .standIn then scalar? value else standIn? rest

/-- Is the node a mapping? -/
def isMapping : Node → Bool
  | .mapping .. => true
  | _ => false

/-- The payload of a type that scalars have.  A moment is never read from a stand-in. -/
def scalarPayload (depth : Nat) (node : Node) : Attempt Payload :=
  match node.scalar? with
  | none => Attempt.malformed depth
  | some (text, serial) =>
    if node.isMapping && node.tag == .moment then
      .error (depth, .mishap Conversion.noMomentText)
    else
      match Conversion.scalar node.tag text serial with
      | .ok payload => .ok payload
      | .error why => .error (depth, why)

/-- What is known of a document while its nodes are taken for drafts: its name, and the
collections with names that are refused, with the depth inside them. -/
structure Context where
  home : String
  refused : Assoc String (Nat × Refusal) := []

mutual

/-- The draft of a node inside of `depth` collections. -/
def toDraft (c : Context) (depth : Nat) : Node → Attempt Draft
  | .scalar tag text serial =>
    match tag with
    | .sequence | .mapping | .set | .orderedMap | .pairs => Attempt.malformed (depth + 1)
    | _ => (scalarPayload depth (.scalar tag text serial)).map .whole
  | .sequence tag items =>
    match tag with
    | .sequence => (toDrafts c (depth + 1) items).map .list
    | .orderedMap | .pairs => (toPairs c (depth + 1) items).map .list
    | .mapping | .set => Attempt.malformed (depth + 1)
    | _ => Attempt.malformed depth
  | .mapping tag entries =>
    match tag with
    | .mapping => ((gather c (depth + 1) entries).toMap (depth + 1)).map .map
    | .set =>
      ((gather c (depth + 1) entries).toMap (depth + 1)).map fun m =>
        .whole (setOf (m.map Prod.fst))
    | .sequence | .orderedMap | .pairs => Attempt.malformed (depth + 1)
    | _ => (scalarPayload depth (.mapping tag entries)).map .whole
  | .anchored name _ =>
    match c.refused.find? name with
    | some (inner, why) => .error (depth + inner, why)
    | none => .ok (.part ⟨c.home, name⟩)

/-- The drafts of nodes. -/
def toDrafts (c : Context) (depth : Nat) : List Node → Attempt (List Draft)
  | [] => .ok []
  | node :: rest =>
    (Attempt.both (toDraft c depth node) (toDrafts c depth rest)).map fun (a, b) => a :: b

/-- The entries of mappings that have one entry each. -/
def toPairs (c : Context) (depth : Nat) : List Node → Attempt (List Draft)
  | [] => .ok []
  | .mapping _ [(key, value)] :: rest | .anchored _ (.mapping _ [(key, value)]) :: rest =>
    (Attempt.both (Attempt.both (toDraft c depth key) (toDraft c depth value))
      (toPairs c depth rest)).map
      fun ((key, value), rest) => .tuple [key, value] :: rest
  | _ :: _ => Attempt.malformed depth

/-- The entries of a mapping. -/
def gather (c : Context) (depth : Nat) : List (Node × Node) → Gathered
  | [] => {}
  | (key, value) :: rest =>
    let others := gather c depth rest
    if key.tag == .merge then (gatherMerged c depth value).mergeFirst others
    else
      let keyPayload : Attempt Payload := match key with
        | .scalar .standIn text _ => .ok (.text text)
        | _ => Attempt.asKey depth (toDraft c depth key)
      let entry := Attempt.both keyPayload (toDraft c depth value)
      { others with own := (Attempt.both entry others.own).map fun (a, b) => a :: b }

/-- The entries that a merge key takes in: those of a mapping, or those of a sequence of
mappings, of which the first wins over the later ones. -/
def gatherMerged (c : Context) (depth : Nat) : Node → Gathered
  | .scalar .. => .bad
  | .mapping _ entries => gather c depth entries
  | .sequence _ items => gatherEach c depth items
  | .anchored _ node => gatherMerged c depth node

/-- The entries of a sequence of mappings, those of the last one first. -/
def gatherEach (c : Context) (depth : Nat) : List Node → Gathered
  | [] => {}
  | .mapping _ entries :: rest | .anchored _ (.mapping _ entries) :: rest =>
    let others := gatherEach c depth rest
    let first := gather c depth entries
    { misused := others.misused || first.misused,
      own := (Attempt.both others.all first.all).map fun (a, b) => a ++ b }
  | _ :: _ => .bad

end

end Node

/-- Take the next collection with a name for a shared part. -/
def Document.addPart (known : Node.Context × Parts) (entry : String × Node) :
    Node.Context × Parts :=
  let (c, parts) := known
  let (name, node) := entry
  match node.toDraft c 0 with
  | .ok draft => (c, parts.put ⟨c.home, name⟩ draft)
  | .error flaw => ({ c with refused := c.refused.put name flaw }, parts)

/-- The payload of a document with its shared parts; the anchors bear the name of the document. -/
def Document.toShared (home : String) (d : Document) : Except Refusal (Shared Draft) :=
  let (c, parts) := d.anchored.foldl addPart ({ home }, [])
  match d.root.toDraft c 0 with
  | .ok draft => .ok ⟨draft, parts⟩
  | .error (_, why) => .error why

/-- The payload of the only document of a text, with its shared parts; a text without a document
is nothing. -/
def loadShared (home : String) (text : List Char) : Except Refusal (Shared Draft) := do
  match ← Document.ofText? text with
  | none => return ⟨.whole .null, []⟩
  | some d => d.toShared home

/-- The payload of the only document of a text, unfolded where it holds itself. -/
def load (text : List Char) : Except Refusal Payload :=
  (loadShared "" text).map Shared.unfolded

end TaintFlow.Yaml
