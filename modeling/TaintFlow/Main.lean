import TaintFlow.CommandLine.Files

/-!
# The program

Reads the files that a command may look at, answers the command, and writes
what it leaves behind.
-/

namespace TaintFlow.Program

open CommandLine

/-- The variables of the environment of this process. -/
def environment : IO Environment := do
  try
    let bytes ← IO.FS.readBinFile "/proc/self/environ"
    let rows := (bytes.toList.splitOn 0).filterMap Text.Utf8.decode?
    return .ofList (rows.filterMap fun row =>
      match Request.splitValue row with
      | (name, some value) => some (name, value)
      | _ => none)
  catch _ => return []

/-- The names on the way to a path. -/
def namesOf (p : Path) : List String := if p.isAbsolute then Folder.root :: p.names else p.names

/-- The text of the path of names. -/
def textOf : List String → String
  | [] => "."
  | first :: rest =>
    if first == Folder.root then Folder.root ++ "/".intercalate rest
    else "/".intercalate (first :: rest)

/-- What names lead to: a folder, the text of a file, or nothing that can be read. -/
inductive Found where
  | folder
  | file (content : String)
  | nothing

/-- Look at what names lead to. -/
def look (names : List String) : IO Found := do
  try
    return .file (← IO.FS.readFile (textOf names))
  catch e =>
    match e with
    | .inappropriateType .. => return .folder
    | _ => return .nothing

/-- Take the folders on the way to names into a folder. -/
def takeOuter (folder : Folder) (names : List String) : IO Folder :=
  (List.range names.length).foldlM (fun folder n => do
    match ← look (names.take n) with
    | .folder => return { folder with folders := names.take n :: folder.folders }
    | _ => return folder) folder

/-- Take what a path leads to into a folder. -/
def take (parse : String → File) (folder : Folder) (p : Path) : IO Folder := do
  let names := namesOf p
  let folder ← takeOuter folder names
  match ← look names with
  | .folder => return { folder with folders := names :: folder.folders }
  | .file content => return { folder with files := folder.files.put names (parse content) }
  | .nothing => return folder

/-- The file of a ledger; a text that holds no rows stays a text. -/
def ledgerFile (content : String) : File :=
  match LedgerRow.ofFileText? content with
  | some rows => .ledger rows
  | none => .text content

/-- Take what paths lead to into a folder. -/
def takeAll (folder : Folder) (wanted : Wanted) : IO Folder := do
  let folder ← wanted.texts.foldlM (take .text) folder
  wanted.ledgers.foldlM (take ledgerFile) folder

/-- Write the files that a command has changed. -/
def leave (before after : Folder) : IO Unit := do
  for (names, file) in after.files do
    match file with
    | .ledger rows => IO.FS.writeFile (textOf names) (LedgerRow.fileText rows)
    | .text content =>
      let old := match before.files.find? names with
        | some (.text old) => some old
        | _ => none
      if old != some content then IO.FS.writeFile (textOf names) content

/-- Tell how a command ended. -/
def tell : Ending → IO Unit
  | .finished out _ => IO.print out.screen
  | .misused => IO.eprintln "Usage: (list | run | ground-truth) [options]"
  | .refused reason => IO.eprintln s!"Error: {reason}"
  | .crashed failure => IO.eprintln s!"{failure.name}: {failure.message}"
  | .stalled => IO.eprintln "Error: a capability never answers"

/-- Answer an argument list. -/
def run (args : List String) : IO UInt32 := do
  let env ← environment
  let issued ← IO.rand 0 0x80000000
  let named ← takeAll {} (namedPaths args)
  let folder ← takeAll named (settledPaths ⟨named, env, issued⟩ args)
  let (ending, d) := CommandLine.run ⟨folder, env, issued⟩ args
  tell ending
  leave folder d.folder
  return ending.status.toUInt32

end TaintFlow.Program

/-- The program. -/
def main (args : List String) : IO UInt32 := TaintFlow.Program.run args
