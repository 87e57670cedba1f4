import ContentSearch.Files.System
import ContentSearch.Proofs.Text.Splitting
import ContentSearch.Store.FileName
import Mathlib.Data.Fin.Basic
import Mathlib.Logic.Function.Basic

/-!
# Names of files

A byte is written either as one character other than `%`, or as `%` and two digits, so that a name tells where its first
byte ends (`escape_append_inj`).

* `ofKey_injective`: different keys have different files;
* `temporary_ne_ofKey`: no text is prepared in the file of a key;
* `ordinary_ofKey`, `ordinary_temporary`: all these names are ordinary, and
* `FileSystem.locate_entry`: a path that goes on with an ordinary name leads to an entry of the folder it had led to.
-/

namespace ContentSearch

/-- A name that stands for an entry of a folder: it is neither empty, nor does it stand for the folder itself or for the one
around it, nor is it made of several names. -/
structure FileName.Ordinary (name : Text) : Prop where
  ne_nil : name ≠ []
  ne_self : name ≠ ['.']
  ne_parent : name ≠ "..".toList
  slash : '/' ∉ name

/-! ## paths -/

namespace FileSystem

theorem names_append_slash (path name : Text) : names (path ++ '/' :: name) = names path ++ names name := by
  rw [names, Text.splitOn_append_separator (by simp), List.filter_append]
  rfl

theorem names_of_ordinary {name : Text} (h : FileName.Ordinary name) : names name = [name] := by
  have hsplit : Text.splitOn (· = '/') name = [name] := by
    refine Text.splitOn_of_forall fun c hc => decide_eq_false ?_
    rintro rfl
    exact h.slash hc
  rw [names, hsplit]
  simp [h.ne_nil, h.ne_self]

theorem climb_append (fs : FileSystem) (back l : List Text) {name : Text} (h : name ≠ "..".toList) :
    fs.climb back (l ++ [name]) = (fs.climb back l).map (· ++ [name]) := by
  induction l generalizing back with
  | nil =>
    rw [List.nil_append, climb, climb, if_neg h, climb, List.reverse_cons]
    rfl
  | cons n l ih =>
    rw [List.cons_append, climb, climb]
    split
    · split
      · exact ih back.tail
      · rfl
      · rfl
    · exact ih (n :: back)

theorem locate_entry (fs : FileSystem) {path name : Text} (hpath : path ≠ []) (h : FileName.Ordinary name) :
    fs.locate (path ++ '/' :: name) = (fs.locate path).map (· ++ [name]) := by
  have hstart : fs.start (path ++ '/' :: name) = fs.start path := by
    cases path with
    | nil => exact absurd rfl hpath
    | cons c path => rfl
  rw [locate, locate, if_neg (by simp), if_neg (by simpa using hpath), hstart, names_append_slash, names_of_ordinary h,
    climb_append fs _ _ h.ne_parent]

end FileSystem

namespace FileName

/-! ## bytes -/

theorem utf8_injective {k l : Text} (h : k.flatMap String.utf8EncodeChar = l.flatMap String.utf8EncodeChar) : k = l := by
  have hbytes : k.utf8Encode = l.utf8Encode := by rw [List.utf8Encode, List.utf8Encode, h]
  have hdecoded : some k.toArray = some l.toArray := by
    rw [← List.utf8Decode?_utf8Encode, ← List.utf8Decode?_utf8Encode, hbytes]
  simpa using hdecoded

theorem ofUInt8_inj {b c : UInt8} (h : Char.ofUInt8 b = Char.ofUInt8 c) : b = c := by
  have hval : b.toUInt32 = c.toUInt32 := congrArg Char.val h
  simpa [← UInt32.toNat_inj, UInt8.toNat_inj] using hval

theorem hexDigit_inj {m n : Nat} (hm : m < 16) (hn : n < 16) (h : hexDigit m = hexDigit n) : m = n := by
  have hall : ∀ a b : Fin 16, hexDigit a = hexDigit b → a = b := by decide
  exact congrArg Fin.val (hall ⟨m, hm⟩ ⟨n, hn⟩ h)

theorem escape_cases (b : UInt8) : (escape b = [Char.ofUInt8 b] ∧ Char.ofUInt8 b ≠ '%') ∨
    escape b = ['%', hexDigit (b.toNat / 16), hexDigit (b.toNat % 16)] := by
  unfold escape
  split
  · next hplain =>
    refine .inl ⟨rfl, ?_⟩
    intro hb
    rw [isPlain, hb] at hplain
    exact absurd hplain (by decide)
  · exact .inr rfl

theorem escape_append_inj {b c : UInt8} {s t : Text} (h : escape b ++ s = escape c ++ t) : b = c ∧ s = t := by
  have hb : b.toNat < 256 := b.toNat_lt
  have hc : c.toNat < 256 := c.toNat_lt
  obtain ⟨hb', hplain⟩ | hb' := escape_cases b <;> obtain ⟨hc', hplain'⟩ | hc' := escape_cases c <;>
    rw [hb', hc'] at h
  · obtain ⟨hchar, rfl⟩ := List.cons.inj h
    exact ⟨ofUInt8_inj hchar, rfl⟩
  · exact absurd (List.cons.inj h).1 hplain
  · exact absurd (List.cons.inj h).1.symm hplain'
  · obtain ⟨hhigh, hlow, rfl⟩ : hexDigit (b.toNat / 16) = hexDigit (c.toNat / 16) ∧
        hexDigit (b.toNat % 16) = hexDigit (c.toNat % 16) ∧ s = t := by simpa using h
    have hhigh := hexDigit_inj (by omega) (by omega) hhigh
    have hlow := hexDigit_inj (by omega) (by omega) hlow
    refine ⟨UInt8.toNat_inj.1 ?_, rfl⟩
    omega

theorem flatMap_escape_injective {k l : List UInt8} (h : k.flatMap escape = l.flatMap escape) : k = l := by
  have hne (b : UInt8) (t : Text) : escape b ++ t ≠ [] := by
    obtain ⟨hb, -⟩ | hb := escape_cases b <;> simp [hb]
  induction k generalizing l with
  | nil =>
    cases l with
    | nil => rfl
    | cons c l => exact absurd h.symm (hne c _)
  | cons b k ih =>
    cases l with
    | nil => exact absurd h (hne b _)
    | cons c l =>
      obtain ⟨rfl, hrest⟩ := escape_append_inj h
      rw [ih hrest]

/-! ## names -/

theorem stem_injective {k l : Text} (h : stem k = stem l) : k = l := utf8_injective (flatMap_escape_injective h)

theorem ofKey_injective : Function.Injective ofKey := fun _ _ h => stem_injective (List.append_cancel_right h)

/-- A text is never prepared in the file of a key, since the two names end in different letters. -/
theorem temporary_ne_ofKey (k l : Text) : temporary k ≠ ofKey l := by
  intro h
  have htemporary : (temporary k).getLast? = some 'p' := by simp [temporary, List.getLast?_cons]
  have hkey : (ofKey l).getLast? = some 'n' := by simp [ofKey]
  rw [h, hkey] at htemporary
  exact absurd htemporary (by decide)

theorem slash_not_mem_escape (b : UInt8) : '/' ∉ escape b := by
  have hdigit : ∀ n : Fin 16, hexDigit n ≠ '/' := by decide
  have hb : b.toNat < 256 := b.toNat_lt
  unfold escape
  split
  · next hplain =>
    intro hmem
    rw [isPlain, ← List.mem_singleton.1 hmem] at hplain
    exact absurd hplain (by decide)
  · have hhigh := hdigit ⟨b.toNat / 16, by omega⟩
    have hlow := hdigit ⟨b.toNat % 16, by omega⟩
    simp [hhigh.symm, hlow.symm]

theorem slash_not_mem_stem (key : Text) : '/' ∉ stem key := by
  intro h
  obtain ⟨b, -, hb⟩ := List.mem_flatMap.1 h
  exact slash_not_mem_escape b hb

theorem ordinary_of_length {name : Text} (hlength : 3 ≤ name.length) (hslash : '/' ∉ name) : Ordinary name where
  ne_nil := by rintro rfl; simp at hlength
  ne_self := by rintro rfl; simp at hlength
  ne_parent := by rintro rfl; simp at hlength
  slash := hslash

theorem ordinary_ofKey (key : Text) : Ordinary (ofKey key) :=
  ordinary_of_length (by simp [ofKey]) (by simp [ofKey, slash_not_mem_stem])

theorem ordinary_temporary (key : Text) : Ordinary (temporary key) :=
  ordinary_of_length (by simp [temporary]) (by simp [temporary, slash_not_mem_stem])

end FileName
end ContentSearch
