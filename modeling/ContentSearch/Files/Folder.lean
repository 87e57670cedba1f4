import ContentSearch.Text.Basic

/-!
Files in folders, as a value: what a folder holds, and reading, writing, renaming and removing a
file of a folder. Names may be limited in length.
-/

namespace ContentSearch

/-- A file with its contents, or a folder with its entries. -/
inductive FileNode where
  | file (contents : Text)
  | folder (entries : List (Text × FileNode))

/-- The entries of a folder, each name at most once. -/
abbrev Folder := List (Text × FileNode)

/-- Why an operation on files failed. -/
inductive FileError where
  | notFound
  | notFolder
  | isFolder
  | alreadyExists
  | nameTooLong
  deriving Repr, DecidableEq

/-- What the operating system says of an error. -/
def FileError.message : FileError → Text
  | .notFound => "No such file or directory (os error 2)".toList
  | .notFolder => "Not a directory (os error 20)".toList
  | .isFolder => "Is a directory (os error 21)".toList
  | .alreadyExists => "File exists (os error 17)".toList
  | .nameTooLong => "File name too long (os error 36)".toList

namespace Folder

def node? (f : Folder) (name : Text) : Option FileNode :=
  (List.find? (fun e => e.1 = name) f).map (·.2)

def erase (f : Folder) (name : Text) : Folder := List.filter (fun e => e.1 ≠ name) f

def insert (f : Folder) (name : Text) (node : FileNode) : Folder := (name, node) :: f.erase name

theorem node?_insert_self (f : Folder) (name : Text) (node : FileNode) :
    (f.insert name node).node? name = some node := by simp [node?, Folder.insert]

theorem node?_erase_self (f : Folder) (name : Text) : (f.erase name).node? name = none := by
  simp [node?, Folder.erase, List.find?_filter]

theorem node?_erase_of_ne (f : Folder) {name other : Text} (h : other ≠ name) :
    (f.erase name).node? other = f.node? other := by
  simp only [node?, Folder.erase, List.find?_filter]
  congr 2
  funext e
  by_cases he : e.1 = other <;> simp [he, h]

theorem node?_insert_of_ne (f : Folder) {name other : Text} (node : FileNode) (h : other ≠ name) :
    (f.insert name node).node? other = f.node? other := by
  have hne : ¬ name = other := fun e => h e.symm
  rw [← node?_erase_of_ne f h]
  simp [node?, Folder.insert, hne]

/-! ## operations on the files of a folder -/

def checkName (limit : Option Nat) (name : Text) : Except FileError Unit :=
  match limit with
  | some n => if Text.byteLength name ≤ n then .ok () else .error .nameTooLong
  | none => .ok ()

def read (limit : Option Nat) (f : Folder) (name : Text) : Except FileError Text := do
  checkName limit name
  match f.node? name with
  | some (.file contents) => return contents
  | some (.folder _) => throw .isFolder
  | none => throw .notFound

/-- The folder after a file was written, which replaces an older file of its name. -/
def write (limit : Option Nat) (f : Folder) (name contents : Text) : Except FileError Folder := do
  checkName limit name
  match f.node? name with
  | some (.folder _) => throw .isFolder
  | _ => return f.insert name (.file contents)

/-- The folder after a file was given another name, which replaces an older file of that name. -/
def rename (limit : Option Nat) (f : Folder) (old new : Text) : Except FileError Folder := do
  checkName limit new
  let contents ← f.read limit old
  (f.erase old).write limit new contents

def remove (limit : Option Nat) (f : Folder) (name : Text) : Except FileError Folder := do
  let _ ← f.read limit name
  return f.erase name

end Folder
end ContentSearch
