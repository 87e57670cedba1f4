import ContentSearch.Files.Folder
import ContentSearch.Store.Basic
import ContentSearch.Store.FileName

/-!
Stores in a folder, with a file for each key. A text is written to a temporary file, which then
takes the place of the key's file, so that no file is ever half written.
-/

namespace ContentSearch

/-- A folder that serves as a store. -/
structure FolderStore where
  folder : Folder
  /-- The greatest number of bytes in the name of a file. -/
  nameLimit : Option Nat

namespace FolderStore

def failure (e : FileError) : Failure := .inputOutput e.message

/-- The text under a key; a file that does not exist holds none. -/
def get (s : FolderStore) (key : Text) : Except Failure (Option Text) :=
  match s.folder.read s.nameLimit (FileName.ofKey key) with
  | .ok t => .ok (some t)
  | .error .notFound => .ok none
  | .error e => .error (failure e)

/-- Writes the file of a key. If the temporary file cannot take its place, it stays behind. -/
def set (s : FolderStore) (key value : Text) : Except Failure Unit × FolderStore :=
  let temporary := FileName.temporary key
  match s.folder.write s.nameLimit temporary value with
  | .error e => (.error (failure e), s)
  | .ok prepared =>
    match prepared.rename s.nameLimit temporary (FileName.ofKey key) with
    | .error e => (.error (failure e), { s with folder := prepared })
    | .ok folder => (.ok (), { s with folder })

/-- Removes the file of a key, if there is one. -/
def delete (s : FolderStore) (key : Text) : Except Failure Unit × FolderStore :=
  match s.folder.remove s.nameLimit (FileName.ofKey key) with
  | .ok folder => (.ok (), { s with folder })
  | .error .notFound => (.ok (), s)
  | .error e => (.error (failure e), s)

instance : Store FolderStore where
  get s key := (s.get key, s)
  set := set
  delete := delete

end FolderStore
end ContentSearch
