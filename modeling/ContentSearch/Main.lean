import ContentSearch.CommandLine.Run
import Std.Time.DateTime.Timestamp

/-!
The program: it looks at the files that a command uses, runs the command on them, and puts back
what the command has changed.
-/

namespace ContentSearch.CommandLine

/-- What there is under a path; a folder is taken to be empty. -/
def lookAt (path : Text) : IO (Option FileNode) := do
  try
    return some (.file (← IO.FS.readFile (String.ofList path)).toList)
  catch
    | .inappropriateType _ 21 _ => return some (.folder [])
    | _ => return none

/-- The file of a key in a folder. -/
def keyPath (folder key : Text) : Text := folder ++ '/' :: FileName.ofKey key

/-- The paths that a command uses, and the folder and the key of its history. -/
def usedBy : Command → List Text × Option (Text × Text)
  | .search o =>
    let key := match o.config with
      | .ok c => c.historyKey
      | .error _ => []
    ([o.itemsFile], o.historyFolder.map fun folder => (folder, key))
  | .history o => ([], some (o.folder, o.key))
  | _ => ([], none)

/-- The file system with what there is under some paths. -/
def snapshot (paths : List Text) : IO FileSystem :=
  paths.foldlM (fun fs path => do
    match ← lookAt path with
    | some node => return fs.place path node
    | none => return fs) FileSystem.empty

/-- Makes a folder and the file of a key in it what they are in a file system. -/
def putBack (fs : FileSystem) (folder key : Text) : IO Unit := do
  if let .ok (.folder _) := fs.node folder then
    IO.FS.createDirAll (String.ofList folder)
  let path := keyPath folder key
  match fs.node path, ← lookAt path with
  | .ok (.file new), some (.file old) => if new ≠ old then replaceFile folder key new
  | .ok (.file new), _ => replaceFile folder key new
  | .error .notFound, some (.file _) => IO.FS.removeFile (String.ofList path)
  | _, _ => return
where
  replaceFile (folder key new : Text) : IO Unit := do
    let temporary := String.ofList (folder ++ '/' :: FileName.temporary key)
    IO.FS.writeFile temporary (String.ofList new)
    IO.FS.rename temporary (String.ofList (keyPath folder key))

def usage : String :=
  "Usage: sitesearch [-v|-q] [-f human|json] [--pretty] <search|parse|highlight|history> ..."

def execute (o : Options) (args : List Text) : IO UInt32 := do
  let (paths, history?) := usedBy o.command
  let historyPaths := match history? with
    | some (folder, key) => [folder, keyPath folder key]
    | none => []
  let fs ← snapshot (paths ++ historyPaths)
  let now := (← Std.Time.Timestamp.now).toMillisecondsSinceUnixEpoch.toInt
  match run ⟨now, 0⟩ fs args with
  | .error _ => throw (.userError "the search index is broken")
  | .ok (ending, fs) =>
    if let some (folder, key) := history? then putBack fs folder key
    match ending with
    | .success output => IO.print (String.ofList output); return 0
    | .failure f => IO.eprintln ("Error: " ++ String.ofList f.message); return 1
    | .help => IO.println usage; return 0
    | .refused => IO.eprintln usage; return 2

/-- Does what the arguments ask for; the result is the exit code. -/
def start (args : List Text) : IO UInt32 := do
  match Request.read args with
  | .run o => execute o args
  | .version => IO.print (String.ofList versionText); return 0
  | .help => IO.println usage; return 0
  | .refused => IO.eprintln usage; return 2

end ContentSearch.CommandLine

def main (args : List String) : IO UInt32 :=
  ContentSearch.CommandLine.start (args.map String.toList)
