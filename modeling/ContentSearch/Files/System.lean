import ContentSearch.Files.Folder

/-!
File systems: folders within folders, and paths that lead through them from a working folder.
-/

namespace ContentSearch

namespace Folder

/-- The entry that a list of names leads to. -/
def follow (limit : Option Nat) (f : Folder) : List Text → Except FileError FileNode
  | [] => .ok (.folder f)
  | name :: rest => do
    checkName limit name
    match f.node? name with
    | none => throw .notFound
    | some (.file contents) =>
      if rest.isEmpty then return .file contents else throw .notFolder
    | some (.folder entries) => follow limit entries rest

/-- The entries of the folder under a name, none if there is no such folder. -/
def subfolder (f : Folder) (name : Text) : Folder :=
  match f.node? name with
  | some (.folder entries) => entries
  | _ => []

/-- The folder with `node` as the entry that a list of names leads to. -/
def place (node : FileNode) : Folder → List Text → FileNode
  | _, [] => node
  | f, name :: rest => .folder (f.insert name (place node (f.subfolder name) rest))

/-- The folder after all folders along a list of names were made. A file in the way is an error. -/
def makeFolders (limit : Option Nat) (f : Folder) : List Text → Except FileError Folder
  | [] => .ok f
  | name :: rest => do
    checkName limit name
    match f.node? name with
    | some (.file _) => throw .alreadyExists
    | _ => return f.insert name (.folder (← makeFolders limit (f.subfolder name) rest))

end Folder

/-- A file system as it is seen from a working folder. -/
structure FileSystem where
  root : Folder
  /-- The names that lead from the root to the working folder. -/
  home : List Text
  /-- The greatest number of bytes in a name. -/
  nameLimit : Option Nat

namespace FileSystem

/-- The file system with nothing but a working folder, and names of at most 255 bytes. -/
def empty : FileSystem :=
  ⟨[("home".toList, .folder [])], ["home".toList], some 255⟩

def names (path : Text) : List Text :=
  (Text.splitOn (· = '/') path).filter fun n => !n.isEmpty && n ≠ ['.']

/-- The names that lead from the root to where further names lead from `back`, which is given
backwards. Only a folder has a folder around it. -/
def climb (fs : FileSystem) (back : List Text) : List Text → Except FileError (List Text)
  | [] => .ok back.reverse
  | name :: rest =>
    if name = "..".toList then
      match fs.root.follow fs.nameLimit back.reverse with
      | .ok (.folder _) => fs.climb back.tail rest
      | .ok (.file _) => .error .notFolder
      | .error e => .error e
    else fs.climb (name :: back) rest

/-- The names that lead from the root to where a path starts, backwards. -/
def start (fs : FileSystem) (path : Text) : List Text :=
  if path.head? = some '/' then [] else fs.home.reverse

def locate (fs : FileSystem) (path : Text) : Except FileError (List Text) :=
  if path.isEmpty then .error .notFound else fs.climb (fs.start path) (names path)

/-- The entry that a path leads to. A path that ends in `/` leads to a folder. -/
def node (fs : FileSystem) (path : Text) : Except FileError FileNode := do
  match ← fs.root.follow fs.nameLimit (← fs.locate path) with
  | .file contents =>
    if path.getLast? = some '/' then throw .notFolder else return .file contents
  | .folder entries => return .folder entries

def read (fs : FileSystem) (path : Text) : Except FileError Text := do
  match ← fs.node path with
  | .file contents => return contents
  | .folder _ => throw .isFolder

/-- The root after all folders were made that further names lead through from `back`, which is given
backwards. -/
def makeAlong (fs : FileSystem) (root : Folder) (back : List Text) :
    List Text → Except FileError Folder
  | [] => .ok root
  | name :: rest =>
    if name = "..".toList then fs.makeAlong root back.tail rest
    else
      match root.makeFolders fs.nameLimit (name :: back).reverse with
      | .ok root => fs.makeAlong root (name :: back) rest
      | .error .alreadyExists => .error (if rest.isEmpty then .alreadyExists else .notFolder)
      | .error e => .error e

/-- The file system after the folder that a path leads to was made, with the folders that the path
leads through. -/
def makeFolder (fs : FileSystem) (path : Text) : Except FileError FileSystem := do
  return { fs with root := ← fs.makeAlong fs.root (fs.start path) (names path) }

def place (fs : FileSystem) (path : Text) (node : FileNode) : FileSystem :=
  match fs.locate path with
  | .ok names =>
    match Folder.place node fs.root names with
    | .folder root => { fs with root }
    | .file _ => fs
  | .error _ => fs

mutual

/-- The files in a folder with the paths that lead to them, each path after `start`. -/
def filesFrom (start : Text) : FileNode → List (Text × Text)
  | .file contents => [(start, contents)]
  | .folder entries => filesOfEntries start entries

def filesOfEntries (start : Text) : List (Text × FileNode) → List (Text × Text)
  | [] => []
  | (name, node) :: rest =>
    filesFrom (if start.isEmpty then name else start ++ '/' :: name) node ++
      filesOfEntries start rest

end

def files (fs : FileSystem) : List (Text × Text) :=
  match fs.root.follow none fs.home with
  | .ok node => filesFrom [] node
  | .error _ => []

end FileSystem
end ContentSearch
