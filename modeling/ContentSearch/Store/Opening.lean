import ContentSearch.Files.System
import ContentSearch.Store.FolderStore

/-!
Opening the folder under a path as a store. The folder is made if there is nothing under the path.
-/

namespace ContentSearch.FolderStore

/-- The file system in which the folder under a path exists. -/
def prepare (fs : FileSystem) (path : Text) : Except Failure FileSystem :=
  match fs.node path with
  | .ok _ => .ok fs
  | .error _ =>
    match fs.makeFolder path with
    | .ok fs => .ok fs
    | .error e =>
      .error (.storage ("Failed to create directory ".toList ++ path ++ ": ".toList ++ e.message))

/-- The store in the folder under a path, and the file system in which that folder exists. -/
def openAt (fs : FileSystem) (path : Text) : Except Failure (FolderStore × FileSystem) := do
  let fs ← prepare fs path
  match fs.node path with
  | .ok (.folder entries) => return (⟨entries, fs.nameLimit⟩, fs)
  | _ => throw (.storage ("Path is not a directory: ".toList ++ path))

end ContentSearch.FolderStore
