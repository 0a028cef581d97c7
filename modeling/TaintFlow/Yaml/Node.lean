import TaintFlow.Yaml.Scalar.Pattern
import TaintFlow.Yaml.Scalar.Time
import TaintFlow.Yaml.Token.Lexer
import TaintFlow.Data.Assoc

/-!
# Nodes

A document is a tree of nodes: scalars, sequences and mappings, each with its
type.  An alias stands for the node that bears its anchor: a scalar for a copy,
a collection for the same one, which keeps the name of its anchor.  A collection
inside of one with an anchor has a name as well, since a merge key may take it
into another mapping, and it is the same one there.
-/

namespace TaintFlow.Yaml

/-!
## Tags

The tag of a node is its type.  A plain scalar without a tag has the type whose
form its text has, and is a text if it has none of these forms.
-/

/-- The types of nodes. -/
inductive Tag where
  | text | whole | decimal | truth | null | binary | moment
  | sequence | mapping | set | orderedMap | pairs
  /-- The type of the key whose value is taken into the mapping around it. -/
  | merge
  /-- The type of the key whose value stands for the whole mapping. -/
  | standIn
  | unknown
  deriving DecidableEq

namespace Tag

/-- The start of the names of the common types. -/
def commonStart : String := "tag:yaml.org,2002:"

/-- The common types by the ends of their names. -/
def common : List (String × Tag) :=
  [("str", text), ("int", whole), ("float", decimal), ("bool", truth), ("null", null),
   ("binary", binary), ("timestamp", moment), ("seq", sequence), ("map", mapping), ("set", set),
   ("omap", orderedMap), ("pairs", pairs), ("merge", merge), ("value", standIn)]

/-- The type of a name in full. -/
def ofName (name : String) : Tag :=
  ((common.find? fun (ending, _) => commonStart ++ ending == name).map Prod.snd).getD unknown

/-- The words for truth values. -/
def truthWords : List (String × Bool) :=
  [("yes", true), ("no", false), ("true", true), ("false", false), ("on", true), ("off", false)]

/-- A word as it is, with a capital letter, and in capitals. -/
def spellings (word : String) : List String := [word, word.capitalize, word.toUpper]

/-- Is the text a truth value? -/
def isTruth (word : String) : Bool := truthWords.any fun (w, _) => (spellings w).contains word

/-- The type of a plain scalar, by its text.  A line break at the end does not count.  The signs
that open tags, anchors and aliases are of no known type. -/
def ofPlain (scalar : String) : Tag :=
  let chars := scalar.toList
  let row := if chars.getLast? == some '\n' then chars.dropLast else chars
  let word := String.ofList row
  if chars.isEmpty then null
  else if isTruth word then truth
  else if Pattern.isDecimal row then decimal
  else if Pattern.isWhole row then whole
  else if word == "<<" then merge
  else if word == "~" || (spellings "null").contains word then null
  else if Moment.isMoment row then moment
  else if word == "=" then standIn
  else if word == "!" || word == "&" || word == "*" then unknown
  else text

end Tag

/-! ## Trees of nodes -/

/-- A node with its type. -/
inductive Node where
  /-- A scalar, with its number among those of the document. -/
  | scalar (tag : Tag) (text : String) (serial : Nat)
  | sequence (tag : Tag) (items : List Node)
  | mapping (tag : Tag) (entries : List (Node × Node))
  /-- A collection with a name; inside itself it is empty. -/
  | anchored (name : String) (node : Node)

/-- A document: its node, and its collections with names, an inner one before an outer one. -/
structure Document where
  root : Node
  anchored : List (String × Node)

namespace Node

instance : Inhabited Node := ⟨.scalar .null "" 0⟩

/-- The node of what is left out. -/
def empty : Node := .scalar .null "" 0

/-- The type of a node. -/
def tag : Node → Tag
  | scalar tag _ _ => tag
  | sequence tag _ => tag
  | mapping tag _ => tag
  | anchored _ node => tag node

/-- What is left of the tokens, the nodes with anchors, the finished collections with names,
latest first, the number of collections that are open, how many of these have anchors, and the
number of nodes that have been counted. -/
structure Progress where
  tokens : List Token
  anchors : Assoc String Node := []
  finished : List (String × Node) := []
  open_ : Nat := 0
  openAnchors : Nat := 0
  counted : Nat := 0

/-- Readers of nodes. -/
abbrev Build := StateT Progress (Except Refusal)

/-- The next token. -/
def peek : Build Token := return (← get).tokens.headD .textEnd

/-- Pass over the next token. -/
def pass : Build Unit := modify fun p => { p with tokens := p.tokens.drop 1 }

/-- Is the next token one of these? -/
def isNext (tokens : List Token) : Build Bool := return tokens.contains (← peek)

/-- The next token is out of place, or it is where the text could not be read further. -/
def misplaced {α : Type} : Build α := do
  match ← peek with
  | .broken why => throw why
  | _ => throw .malformed

/-- Pass over a token that has to come next. -/
def require (t : Token) : Build Unit := do
  if (← peek) == t then pass else misplaced

/-- Pass over an anchor, if there is one. -/
def takeAnchor : Build (Option String) := do
  match ← peek with
  | .anchor name =>
    pass
    return some name
  | _ => return none

/-- Pass over a tag, if there is one. -/
def takeTag : Build (Option (Option String × String)) := do
  match ← peek with
  | .tag handle suffix =>
    pass
    return some (handle, suffix)
  | _ => return none

/-- Pass over an anchor and a tag in either order. -/
def takeProperties : Build (Option String × Option (Option String × String)) := do
  match ← takeAnchor with
  | some anchor => return (some anchor, ← takeTag)
  | none =>
    let tag ← takeTag
    let anchor ← if tag.isSome then takeAnchor else pure none
    return (anchor, tag)

/-- The full name of a tag by the handles of the document. -/
def fullName (handles : Assoc String String) : Option String × String → Build String
  | (none, suffix) => return suffix
  | (some handle, suffix) =>
    match handles.find? handle with
    | some start => return start ++ suffix
    | none => throw .malformed

/-- Give a node to an anchor. -/
def bindAnchor (anchor : Option String) (node : Node) : Build Unit := do
  if let some name := anchor then
    modify fun p => { p with anchors := p.anchors.put name node }

/-- The most collections that may be open at once. -/
def maxDepth : Nat := 485

/-- The mishap of a document that nests too deep. -/
def overDeep : Mishap := .overDeep ""

/-- Read a part of a document inside a collection. -/
def nested {α : Type} (reader : Build α) : Build α := do
  if maxDepth ≤ (← get).open_ then throw (.mishap overDeep)
  modify fun p => { p with open_ := p.open_ + 1 }
  let a ← reader
  modify fun p => { p with open_ := p.open_ - 1 }
  return a

/-- Count one more node. -/
def count : Build Nat := do
  modify fun p => { p with counted := p.counted + 1 }
  return (← get).counted

/-- Give a finished collection its name. -/
def finish (name : String) (node : Node) : Build Node := do
  modify fun p => { p with finished := (name, node) :: p.finished }
  return .anchored name node

/-- Read a collection, its anchor being known inside it; `start` is its empty form.  Inside of an
anchor a collection without one gets a name that no anchor can have. -/
def collection (anchor : Option String) (start : Node) (reader : Build Node) : Build Node := do
  match anchor with
  | none =>
    let node ← nested reader
    if (← get).openAnchors = 0 then return node
    else finish ("/" ++ toString (← count)) node
  | some name =>
    bindAnchor anchor (.anchored name start)
    modify fun p => { p with openAnchors := p.openAnchors + 1 }
    let node ← nested reader
    modify fun p => { p with openAnchors := p.openAnchors - 1 }
    bindAnchor anchor (.anchored name node)
    finish name node

/-- Refuse an anchor that there is already. -/
def requireNew (anchor : Option String) : Build Unit := do
  if let some name := anchor then
    if (← get).anchors.has name then throw .malformed

/-- The type of a collection: the named one, or the usual one. -/
def collectionTag (usual : Tag) (name : Option String) : Tag :=
  match name with
  | none => usual
  | some "!" => usual
  | some name => Tag.ofName name

/-- The type of a scalar: the named one, or the one that its text has if it is plain. -/
def scalarTag (isPlain : Bool) (name : Option String) (text : String) : Tag :=
  match name with
  | none => if isPlain then Tag.ofPlain text else .text
  | some "!" => Tag.ofPlain text
  | some name => Tag.ofName name

/-- Where a node stands. -/
inductive Surroundings where
  /-- Between brackets. -/
  | flow
  /-- Outside brackets. -/
  | block
  /-- Behind a key, where a sequence need not be indented. -/
  | behindKey
  deriving DecidableEq

/-- A node of which nothing is written but an anchor or a tag. -/
def readNothing (anchor name : Option String) : Build Node := do
  if anchor.isNone && name.isNone then misplaced
  else
    let node := .scalar (scalarTag true name "") "" 0
    bindAnchor anchor node
    return node

mutual

/-- Read a node. -/
def read (handles : Assoc String String) (place : Surroundings) : Nat → Build Node
  | 0 => throw .malformed
  | fuel + 1 => do
    match ← peek with
    | .alias name =>
      match (← get).anchors.find? name with
      | some node =>
        pass
        return node
      | none => throw .malformed
    | _ =>
      let (anchor, tag) ← takeProperties
      let name ← tag.mapM (fullName handles)
      requireNew anchor
      let inBlock := place != .flow
      let sequenceOf (items : Build (List Node)) : Build Node :=
        let form := Node.sequence (collectionTag .sequence name)
        collection anchor (form []) (form <$> items)
      let mappingOf (entries : Build (List (Node × Node))) : Build Node :=
        let form := Node.mapping (collectionTag .mapping name)
        collection anchor (form []) (form <$> entries)
      match ← peek with
      | .blockEntry =>
        if place == .behindKey then
          sequenceOf (readLooseEntries handles fuel)
        else readNothing anchor name
      | .scalar text isPlain =>
        pass
        let node := .scalar (scalarTag isPlain name text) text (← count)
        bindAnchor anchor node
        return node
      | .flowSequence =>
        pass
        sequenceOf (readFlowItems handles true fuel)
      | .flowMapping =>
        pass
        mappingOf (readFlowEntries handles true fuel)
      | .blockSequence =>
        if inBlock then
          pass
          sequenceOf (readBlockItems handles fuel)
        else readNothing anchor name
      | .blockMapping =>
        if inBlock then
          pass
          mappingOf (readBlockEntries handles fuel)
        else readNothing anchor name
      | _ => readNothing anchor name

/-- Read a node, or nothing if one of these tokens is next. -/
def readUnless (stops : List Token) (handles : Assoc String String) (place : Surroundings) :
    Nat → Build Node
  | 0 => throw .malformed
  | fuel + 1 => do
    if ← isNext stops then return empty else read handles place fuel

/-- Read the items of an indented sequence, and its end. -/
def readBlockItems (handles : Assoc String String) : Nat → Build (List Node)
  | 0 => throw .malformed
  | fuel + 1 => do
    if (← peek) == .blockEntry then
      pass
      let item ← readUnless [.blockEntry, .blockEnd] handles .block fuel
      return item :: (← readBlockItems handles fuel)
    else
      require .blockEnd
      return []

/-- Read the items of a sequence that is not indented. -/
def readLooseEntries (handles : Assoc String String) : Nat → Build (List Node)
  | 0 => throw .malformed
  | fuel + 1 => do
    if (← peek) == .blockEntry then
      pass
      let item ← readUnless [.blockEntry, .key, .value, .blockEnd] handles .block fuel
      return item :: (← readLooseEntries handles fuel)
    else return []

/-- Read the entries of an indented mapping, and its end. -/
def readBlockEntries (handles : Assoc String String) : Nat → Build (List (Node × Node))
  | 0 => throw .malformed
  | fuel + 1 => do
    if (← peek) == .key then
      pass
      let key ← readUnless [.key, .value, .blockEnd] handles .behindKey fuel
      let value ← if (← peek) == .value then do
          pass
          readUnless [.key, .value, .blockEnd] handles .behindKey fuel
        else pure empty
      return (key, value) :: (← readBlockEntries handles fuel)
    else
      require .blockEnd
      return []

/-- Read the value behind a key between brackets, if there is one. -/
def readFlowValue (stop : Token) (handles : Assoc String String) : Nat → Build Node
  | 0 => throw .malformed
  | fuel + 1 => do
    if (← peek) == .value then
      pass
      readUnless [.flowEntry, stop] handles .flow fuel
    else return empty

/-- Read the items of a sequence between brackets, and its end. -/
def readFlowItems (handles : Assoc String String) (isFirst : Bool) : Nat → Build (List Node)
  | 0 => throw .malformed
  | fuel + 1 => do
    if (← peek) == .flowSequenceEnd then
      pass
      return []
    else
      unless isFirst do require .flowEntry
      match ← peek with
      | .flowSequenceEnd =>
        pass
        return []
      | .key =>
        pass
        let key ← readUnless [.value, .flowEntry, .flowSequenceEnd] handles .flow fuel
        let value ← readFlowValue .flowSequenceEnd handles fuel
        return .mapping .mapping [(key, value)] :: (← readFlowItems handles false fuel)
      | _ =>
        let item ← read handles .flow fuel
        return item :: (← readFlowItems handles false fuel)

/-- Read the entries of a mapping between brackets, and its end. -/
def readFlowEntries (handles : Assoc String String) (isFirst : Bool) :
    Nat → Build (List (Node × Node))
  | 0 => throw .malformed
  | fuel + 1 => do
    if (← peek) == .flowMappingEnd then
      pass
      return []
    else
      unless isFirst do require .flowEntry
      match ← peek with
      | .flowMappingEnd =>
        pass
        return []
      | .key =>
        pass
        let key ← readUnless [.value, .flowEntry, .flowMappingEnd] handles .flow fuel
        let value ← readFlowValue .flowMappingEnd handles fuel
        return (key, value) :: (← readFlowEntries handles false fuel)
      | _ =>
        let key ← read handles .flow fuel
        return (key, empty) :: (← readFlowEntries handles false fuel)

end

/-! ## Documents -/

/-- The handles that every document has. -/
def usualHandles : Assoc String String := [("!", "!"), ("!!", Tag.commonStart)]

/-- Read the directives in front of a document: the handles that they lay down. -/
def readDirectives (hasVersion : Bool) (handles : Assoc String String) :
    Nat → Build (Assoc String String)
  | 0 => throw .malformed
  | fuel + 1 => do
    match ← peek with
    | .directive (.version major _) =>
      if hasVersion || major != 1 then throw .malformed
      else
        pass
        readDirectives true handles fuel
    | .directive (.handle name meaning) =>
      if handles.has name then throw .malformed
      else
        pass
        readDirectives hasVersion (handles.put name meaning) fuel
    | .directive .other =>
      pass
      readDirectives hasVersion handles fuel
    | _ => return handles

/-- Pass over the marks at the end of a document. -/
def passEnds : Nat → Build Unit
  | 0 => return
  | fuel + 1 => do
    if (← peek) == .documentEnd then
      pass
      passEnds fuel

/-- Read the only document of a text; `none` if there is none. -/
def readDocument (fuel : Nat) : Build (Option Node) := do
  let node ← match ← peek with
    | .textEnd => pure none
    | .directive _ | .documentStart => do
      let own ← readDirectives false [] fuel
      require .documentStart
      let handles := usualHandles.filter (fun (name, _) => !own.has name) ++ own
      match ← peek with
      | .directive _ | .documentStart | .documentEnd | .textEnd => pure (some empty)
      | _ => some <$> read handles .block fuel
    | _ => some <$> read usualHandles .block fuel
  passEnds fuel
  require .textEnd
  return node

end Node

/-- The only document of a text; `none` if there is none. -/
def Document.ofText? (text : List Char) : Except Refusal (Option Document) := do
  let row := tokens text
  let (root, p) ← (Node.readDocument (2 * row.length + 2)).run { tokens := row }
  return root.map fun root => ⟨root, p.finished.reverse⟩

end TaintFlow.Yaml
