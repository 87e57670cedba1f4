import ContentSearch.Proofs.Store.FileNames
import ContentSearch.Store.FolderStore

/-!
# Folders as stores

A folder mirrors a dictionary when the file of each key holds what the dictionary has under the key, and no text is in
preparation.  Every request keeps it so and is answered alike (`Mirrors.serve`), and hence every sequence of requests
(`Mirrors.serveAll`), from an empty folder on (`FolderStore.serveAll_empty`).
-/

namespace ContentSearch

/-! ## requests -/

/-- What a store is asked for. -/
inductive StoreRequest where
  | get (key : Text)
  | set (key value : Text)
  | delete (key : Text)
  deriving Repr, DecidableEq

/-- What a store answers: the text that it was asked for, or that a change was made. -/
inductive StoreAnswer where
  | found (text : Except Failure (Option Text))
  | changed (outcome : Except Failure Unit)

namespace Store

variable {σ : Type} [Store σ]

/-- The answer to a request, and the store after it. -/
def serve (s : σ) : StoreRequest → StoreAnswer × σ
  | .get key => (.found (get s key).1, (get s key).2)
  | .set key value => (.changed (set s key value).1, (set s key value).2)
  | .delete key => (.changed (delete s key).1, (delete s key).2)

/-- The answers to requests that are made one after another, and the store after all of them. -/
def serveAll (s : σ) : List StoreRequest → List StoreAnswer × σ
  | [] => ([], s)
  | r :: rs =>
    let (answers, final) := serveAll (serve s r).2 rs
    ((serve s r).1 :: answers, final)

end Store

/-! ## files without a limit to their names -/

namespace Folder

variable {f : Folder} {name : Text}

theorem read_of_file {contents : Text} (h : f.node? name = some (.file contents)) : f.read none name = .ok contents := by
  rw [read, h]
  rfl

theorem read_of_none (h : f.node? name = none) : f.read none name = .error .notFound := by
  rw [read, h]
  rfl

theorem write_of_not_folder (h : ∀ entries, f.node? name ≠ some (.folder entries)) (contents : Text) :
    f.write none name contents = .ok (f.insert name (.file contents)) := by
  rw [write]
  split
  · next entries hnode => exact absurd hnode (h entries)
  · rfl

theorem rename_of_file {new contents : Text} (hold : f.node? name = some (.file contents)) (hne : new ≠ name)
    (hnew : ∀ entries, f.node? new ≠ some (.folder entries)) :
    f.rename none name new = .ok ((f.erase name).insert new (.file contents)) := by
  have hnew' : ∀ entries, (f.erase name).node? new ≠ some (.folder entries) := by
    rw [node?_erase_of_ne f hne]
    exact hnew
  rw [rename, read_of_file hold]
  exact write_of_not_folder hnew' contents

theorem remove_of_file {contents : Text} (h : f.node? name = some (.file contents)) :
    f.remove none name = .ok (f.erase name) := by
  rw [remove, read_of_file h]
  rfl

theorem remove_of_none (h : f.node? name = none) : f.remove none name = .error .notFound := by
  rw [remove, read_of_none h]
  rfl

end Folder

/-! ## one request -/

namespace FolderStore

/-- A folder holds what a dictionary holds, in files whose names may have any length. -/
structure Mirrors (s : FolderStore) (d : Dictionary Text) : Prop where
  unlimited : s.nameLimit = none
  files : ∀ key, s.folder.node? (FileName.ofKey key) = (d.find? key).map .file
  prepared : ∀ key, s.folder.node? (FileName.temporary key) = none

variable {s : FolderStore} {d : Dictionary Text}

theorem mirrors_empty : Mirrors ⟨[], none⟩ .empty := ⟨rfl, fun _ => rfl, fun _ => rfl⟩

namespace Mirrors

theorem not_folder (h : Mirrors s d) (key : Text) (entries : List (Text × FileNode)) :
    s.folder.node? (FileName.ofKey key) ≠ some (.folder entries) := by
  rw [h.files]
  cases d.find? key <;> simp

theorem get_eq (h : Mirrors s d) (key : Text) : s.get key = .ok (d.find? key) := by
  have hfile := h.files key
  unfold get
  rw [h.unlimited]
  cases hvalue : d.find? key with
  | none =>
    rw [hvalue] at hfile
    rw [Folder.read_of_none hfile]
  | some value =>
    rw [hvalue] at hfile
    rw [Folder.read_of_file hfile]

theorem exists_set (h : Mirrors s d) (key value : Text) :
    ∃ s', s.set key value = (.ok (), s') ∧ Mirrors s' (d.insert key value) := by
  have hne := FileName.temporary_ne_ofKey
  let prepared := s.folder.insert (FileName.temporary key) (.file value)
  have hwrite : s.folder.write none (FileName.temporary key) value = .ok prepared := by
    refine Folder.write_of_not_folder (fun entries => ?_) value
    rw [h.prepared]
    exact Option.some_ne_none _ ∘ Eq.symm
  have hself : prepared.node? (FileName.temporary key) = some (.file value) := Folder.node?_insert_self ..
  have hkey (k : Text) : prepared.node? (FileName.ofKey k) = s.folder.node? (FileName.ofKey k) :=
    Folder.node?_insert_of_ne _ _ (hne key k).symm
  have hrename : prepared.rename none (FileName.temporary key) (FileName.ofKey key) =
      .ok ((prepared.erase (FileName.temporary key)).insert (FileName.ofKey key) (.file value)) := by
    refine Folder.rename_of_file hself (hne key key).symm fun entries => ?_
    rw [hkey]
    exact h.not_folder key entries
  refine ⟨⟨(prepared.erase (FileName.temporary key)).insert (FileName.ofKey key) (.file value), s.nameLimit⟩, ?_,
    h.unlimited, fun k => ?_, fun k => ?_⟩
  · rw [set, h.unlimited, hwrite]
    dsimp only
    rw [hrename]
  · by_cases hk : k = key
    · subst hk
      rw [Folder.node?_insert_self, Dictionary.find?_insert_self]
      rfl
    · rw [Folder.node?_insert_of_ne _ _ (FileName.ofKey_injective.ne hk), Folder.node?_erase_of_ne _ (hne key k).symm, hkey,
        h.files, Dictionary.find?_insert_of_ne _ _ hk]
  · rw [Folder.node?_insert_of_ne _ _ (hne k key)]
    -- the file in which this text was prepared is gone, and so is every other one
    by_cases hk : FileName.temporary k = FileName.temporary key
    · rw [hk, Folder.node?_erase_self]
    · rw [Folder.node?_erase_of_ne _ hk, Folder.node?_insert_of_ne _ _ hk, h.prepared]

theorem exists_delete (h : Mirrors s d) (key : Text) :
    ∃ s', s.delete key = (.ok (), s') ∧ Mirrors s' (d.erase key) := by
  have hfile := h.files key
  have hfiles : ∀ k, (s.folder.erase (FileName.ofKey key)).node? (FileName.ofKey k) =
      ((d.erase key).find? k).map .file := by
    intro k
    by_cases hk : k = key
    · subst hk
      rw [Folder.node?_erase_self, Dictionary.find?_erase_self]
      rfl
    · rw [Folder.node?_erase_of_ne _ (FileName.ofKey_injective.ne hk), h.files, Dictionary.find?_erase_of_ne _ hk]
  unfold delete
  rw [h.unlimited]
  cases hvalue : d.find? key with
  | none =>
    rw [hvalue] at hfile
    rw [Folder.remove_of_none hfile]
    refine ⟨s, rfl, h.unlimited, fun k => ?_, h.prepared⟩
    by_cases hk : k = key
    · subst hk
      rw [hfile, Dictionary.find?_erase_self]
    · rw [h.files, Dictionary.find?_erase_of_ne _ hk]
  | some value =>
    rw [hvalue] at hfile
    rw [Folder.remove_of_file hfile]
    refine ⟨_, rfl, rfl, hfiles, fun k => ?_⟩
    rw [Folder.node?_erase_of_ne _ (FileName.temporary_ne_ofKey k key), h.prepared]

/-- A folder and the dictionary that it mirrors answer a request alike, and the one mirrors the other afterwards. -/
theorem serve (h : Mirrors s d) (r : StoreRequest) :
    (Store.serve s r).1 = (Store.serve d r).1 ∧ Mirrors (Store.serve s r).2 (Store.serve d r).2 := by
  cases r with
  | get key => exact ⟨congrArg StoreAnswer.found (h.get_eq key), h⟩
  | set key value =>
    obtain ⟨s', hs, h'⟩ := h.exists_set key value
    have hset : Store.set s key value = (.ok (), s') := hs
    rw [Store.serve, hset]
    exact ⟨rfl, h'⟩
  | delete key =>
    obtain ⟨s', hs, h'⟩ := h.exists_delete key
    have hdelete : Store.delete s key = (.ok (), s') := hs
    rw [Store.serve, hdelete]
    exact ⟨rfl, h'⟩

/-! ## sequences of requests -/

theorem serveAll (h : Mirrors s d) (rs : List StoreRequest) :
    (Store.serveAll s rs).1 = (Store.serveAll d rs).1 ∧ Mirrors (Store.serveAll s rs).2 (Store.serveAll d rs).2 := by
  induction rs generalizing s d with
  | nil => exact ⟨rfl, h⟩
  | cons r rs ih =>
    obtain ⟨hanswer, h'⟩ := h.serve r
    obtain ⟨hanswers, hfinal⟩ := ih h'
    refine ⟨?_, hfinal⟩
    show _ :: _ = _ :: _
    rw [hanswer, hanswers]

theorem get_of_ne (h : Mirrors s d) {key k : Text} (value : Text) (hk : k ≠ key) :
    (s.set key value).2.get k = s.get k ∧ (s.delete key).2.get k = s.get k := by
  obtain ⟨t, hset, ht⟩ := h.exists_set key value
  obtain ⟨u, hdelete, hu⟩ := h.exists_delete key
  rw [hset, hdelete, ht.get_eq, hu.get_eq, h.get_eq, Dictionary.find?_insert_of_ne _ _ hk, Dictionary.find?_erase_of_ne _ hk]
  exact ⟨rfl, rfl⟩

end Mirrors

/-- **A folder is as good a store as a dictionary.**  An empty folder, in which names may have any length, answers every
sequence of requests as an empty dictionary does.  After any requests, a change under one key does not change what is found
under another; no text is ever prepared in the file of a key; and the paths of both files of a key lead to entries of the
folder that the store is in. -/
theorem serveAll_empty :
    (∀ rs, (Store.serveAll (⟨[], none⟩ : FolderStore) rs).1 = (Store.serveAll (Dictionary.empty : Dictionary Text) rs).1) ∧
    (∀ rs key value k, k ≠ key →
      let s := (Store.serveAll (⟨[], none⟩ : FolderStore) rs).2
      (Store.get (Store.set s key value).2 k).1 = (Store.get s k).1 ∧
        (Store.get (Store.delete s key).2 k).1 = (Store.get s k).1) ∧
    (∀ key k, FileName.temporary key ≠ FileName.ofKey k) ∧
    ∀ (fs : FileSystem) path key, path ≠ [] →
      fs.locate (path ++ '/' :: FileName.ofKey key) = (fs.locate path).map (· ++ [FileName.ofKey key]) ∧
      fs.locate (path ++ '/' :: FileName.temporary key) = (fs.locate path).map (· ++ [FileName.temporary key]) := by
  refine ⟨fun rs => (mirrors_empty.serveAll rs).1, ?_, FileName.temporary_ne_ofKey, ?_⟩
  · intro rs key value k hk
    exact (mirrors_empty.serveAll rs).2.get_of_ne value hk
  · intro fs path key hpath
    exact ⟨fs.locate_entry hpath (FileName.ordinary_ofKey key), fs.locate_entry hpath (FileName.ordinary_temporary key)⟩

/-- Keys that differ only in how a space is written, and a key that looks like a path out of the folder. -/
theorem serveAll_empty_similarKeys :
    let s := (Store.serveAll (⟨[], none⟩ : FolderStore)
      [.set "blog history".toList "spaced".toList, .set "blog%20history".toList "escaped".toList]).2
    (Store.get (Store.delete s "blog history".toList).2 "blog%20history".toList).1 =
        (Store.get s "blog%20history".toList).1 ∧
      FileSystem.empty.locate ("store".toList ++ '/' :: FileName.ofKey "../x".toList) =
        (FileSystem.empty.locate "store".toList).map (· ++ [FileName.ofKey "../x".toList]) := by
  have h := serveAll_empty
  exact ⟨(h.2.1 _ "blog history".toList [] "blog%20history".toList (by decide)).2,
    (h.2.2.2 _ "store".toList "../x".toList (by decide)).1⟩

end FolderStore
end ContentSearch
