import TaintFlow.Ledger
import TaintFlow.Text.Quoted

/-!
# The working folder

The files that a command works on, by the names on the way to them: from the
working folder, or from the root, whose name is a slash.  A folder is there as
soon as a file is in it, and there may be others without files.
-/

namespace TaintFlow

/-!
## Paths

A path is a row of names, from the root of the file system or from the working
folder.  Reading one drops the empty names and those that stay in place; names
that go up are kept as they are.
-/

/-- A path; the root is empty for a path from the working folder. -/
structure Path where
  root : String := ""
  names : List String := []
  deriving DecidableEq

namespace Path

/-- The root that a text starts with: two slashes in front are a root of their own, and any
other number of them is the usual one. -/
def rootOf : List Char → String
  | '/' :: '/' :: '/' :: _ => "/"
  | '/' :: '/' :: _ => "//"
  | '/' :: _ => "/"
  | _ => ""

/-- The path that a text tells. -/
def ofText (text : String) : Path :=
  let names := (text.toList.splitOn '/').map String.ofList
  ⟨rootOf text.toList, names.filter fun name => name != "" && name != "."⟩

/-- Does the path start at the root? -/
def isAbsolute (p : Path) : Bool := p.root != ""

/-- The text of a path. -/
def text (p : Path) : String :=
  if p.root == "" && p.names.isEmpty then "."
  else p.root ++ "/".intercalate p.names

/-- A path taken from another one. -/
def join (p q : Path) : Path :=
  if q.isAbsolute then q else { p with names := p.names ++ q.names }

/-- The path without its last name. -/
def parent (p : Path) : Path := { p with names := p.names.dropLast }

/-- A path from the root stays as it is wherever it is taken from. -/
theorem join_of_isAbsolute (p : Path) {q : Path} (h : q.isAbsolute = true) : p.join q = q := by
  simp [join, h]

end Path

/-! ## Files -/

/-- What a file holds. -/
inductive File where
  | text (content : String)
  | ledger (rows : List LedgerRow)

/-- The files that are there, and folders that are there even if they hold none of them. -/
structure Folder where
  files : Assoc (List String) File := []
  folders : List (List String) := []

namespace Folder

/-- The name of the root. -/
def root : String := "/"

/-- The folder of texts under the given paths. -/
def ofTexts (texts : List (String × String)) : Folder :=
  { files := Assoc.ofList (texts.map fun (path, content) =>
      ((Path.ofText path).names, .text content)) }

/-- Do the names lead to a folder? -/
def isFolder (f : Folder) (names : List String) : Bool :=
  names.isEmpty || names == [root] || f.folders.contains names ||
    f.files.any fun (file, _) => names.isPrefixOf file && names != file

/-- Follow names from a folder, which is given from its last name on; names that go up are
taken at the place that is reached, which has to be a folder. -/
def follow (f : Folder) (reached : List String) : List String → Option (List String)
  | [] => some reached.reverse
  | name :: rest =>
    if !f.isFolder reached.reverse then none
    else if name == ".." then
      match reached with
      | [] => none
      | [first] => f.follow (if first == root then [root] else []) rest
      | _ :: outer => f.follow outer rest
    else f.follow (name :: reached) rest

/-- Does a file stand on the way of names, where a folder has to be? -/
def meetsFile (f : Folder) (reached : List String) : List String → Bool
  | [] => false
  | name :: rest =>
    if !f.isFolder reached.reverse then f.files.has reached.reverse
    else if name == ".." then
      match reached with
      | [] => false
      | [first] => f.meetsFile (if first == root then [root] else []) rest
      | _ :: outer => f.meetsFile outer rest
    else f.meetsFile (name :: reached) rest

/-- The names on the way to what a path leads to, whether it is there or not. -/
def locate (f : Folder) (p : Path) : Option (List String) :=
  f.follow (if p.isAbsolute then [root] else []) p.names

/-- The longest name of a file or a folder, in bytes. -/
def maxNameLength : Nat := 255

/-- The longest path, in bytes. -/
def maxPathLength : Nat := 4095

/-- Does a name that is too long stand on the way through folders that are there? -/
def meetsLongName (f : Folder) (reached : List String) : List String → Bool
  | [] => false
  | name :: rest =>
    if !f.isFolder reached.reverse then false
    else if maxNameLength < name.utf8ByteSize then true
    else if name == ".." then f.meetsLongName (reached.drop 1) rest
    else f.meetsLongName (name :: reached) rest

/-- Is a path longer than paths can be? -/
def isTooLong (f : Folder) (p : Path) : Bool :=
  maxPathLength < p.text.utf8ByteSize ||
    f.meetsLongName (if p.isAbsolute then [root] else []) p.names

/-- Does a path lead to a folder? -/
def hasFolder (f : Folder) (p : Path) : Bool := (f.locate p).any f.isFolder

/-- The file that a path leads to. -/
def file? (f : Folder) (p : Path) : Option File := (f.locate p).bind f.files.find?

/-- Is there something at a path? -/
def has (f : Folder) (p : Path) : Bool := f.hasFolder p || (f.file? p).isSome

/-- The mishap of taking a folder for a file. -/
def isDirectory (p : Path) : Mishap :=
  ⟨"IsADirectoryError", s!"[Errno 21] Is a directory: {Text.quoted p.text}"⟩

/-- The mishap of a file that is not there. -/
def noFile (p : Path) : Mishap :=
  ⟨"FileNotFoundError", s!"[Errno 2] No such file or directory: {Text.quoted p.text}"⟩

/-- The mishap of taking a file for a folder. -/
def notDirectory (p : Path) : Mishap :=
  ⟨"NotADirectoryError", s!"[Errno 20] Not a directory: {Text.quoted p.text}"⟩

/-- The mishap of a path that is too long. -/
def tooLong (p : Path) : Mishap :=
  ⟨"OSError", s!"[Errno 36] File name too long: {Text.quoted p.text}"⟩

/-- Ask whether there is something at a path. -/
def exists? (f : Folder) (p : Path) : Except Mishap Bool :=
  if f.isTooLong p then .error (tooLong p) else .ok (f.has p)

/-- A text with each end of a line as one line feed. -/
def unixLines : List Char → List Char
  | [] => []
  | '\r' :: '\n' :: rest => '\n' :: unixLines rest
  | '\r' :: rest => '\n' :: unixLines rest
  | c :: rest => c :: unixLines rest

/-- The text of the file that a path leads to. -/
def readText (f : Folder) (p : Path) : Except Mishap String :=
  if f.hasFolder p then .error (isDirectory p)
  else
    match f.file? p with
    | some (.text content) => .ok (String.ofList (unixLines content.toList))
    | some (.ledger _) => .error ⟨"UnicodeDecodeError", "the file holds no text"⟩
    | none => .error (noFile p)

/-- Write a file at a path, whose folder has to be there. -/
def write (f : Folder) (p : Path) (content : File) : Except Mishap Folder :=
  if f.isTooLong p then .error (tooLong p)
  else if f.hasFolder p then .error (isDirectory p)
  else
    match f.locate p with
    | some names => .ok { f with files := f.files.put names content }
    | none =>
      let start := if p.isAbsolute then [root] else []
      .error (if f.meetsFile start p.names then notDirectory p else noFile p)

/-- The paths of all files below the working folder, in the order of their texts. -/
def paths (f : Folder) : List String :=
  let below := (f.files.map Prod.fst).filter fun names => names.head? != some root
  (below.map "/".intercalate).mergeSort fun a b => !decide (b < a)

end Folder

end TaintFlow
