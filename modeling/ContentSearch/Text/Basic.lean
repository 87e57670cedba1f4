/-!
Texts as lists of characters, with their size in UTF-8: length in bytes, occurrence of one text
in another, and the cutting of a text at byte offsets, which succeeds exactly on offsets that lie
between two characters.
-/

namespace ContentSearch

/-- A text is the list of its characters. Lists of characters are ordered by code point, which is
also the order of their UTF-8 bytes. -/
abbrev Text := List Char

namespace Text

/-- The number of bytes of a text in UTF-8. -/
def byteLength : Text → Nat
  | [] => 0
  | c :: t => c.utf8Size + byteLength t

@[simp] theorem byteLength_nil : byteLength [] = 0 := rfl

@[simp] theorem byteLength_cons (c : Char) (t : Text) :
    byteLength (c :: t) = c.utf8Size + byteLength t := rfl

@[simp] theorem byteLength_append (s t : Text) :
    byteLength (s ++ t) = byteLength s + byteLength t := by
  induction s with
  | nil => simp
  | cons c s ih => simp [ih, Nat.add_assoc]

/-! ## occurrence -/

def occursIn (needle : Text) : Text → Bool
  | [] => needle.isEmpty
  | c :: t => needle.isPrefixOf (c :: t) || occursIn needle t

def find? (needle : Text) : Text → Option Nat
  | [] => if needle.isEmpty then some 0 else none
  | c :: t => if needle.isPrefixOf (c :: t) then some 0 else (find? needle t).map (· + 1)

/-- The text before the first `sep` and the text after it. -/
def splitFirst? (sep : Char) : Text → Option (Text × Text)
  | [] => none
  | c :: t =>
    if c = sep then some ([], t) else (splitFirst? sep t).map fun (a, b) => (c :: a, b)

/-- The text before the last `sep` and the text after it. -/
def splitLast? (sep : Char) (t : Text) : Option (Text × Text) :=
  (splitFirst? sep t.reverse).map fun (a, b) => (b.reverse, a.reverse)

/-- The pieces of a text between the characters that satisfy `p`; there is always one more piece
than such characters. -/
def splitOn (p : Char → Bool) : Text → List Text
  | [] => [[]]
  | c :: t =>
    if p c then [] :: splitOn p t
    else match splitOn p t with
      | [] => [[c]]
      | w :: ws => (c :: w) :: ws

def joinWith (sep : Text) (parts : List Text) : Text := sep.intercalate parts

/-! ## byte offsets -/

/-- A range of bytes of a text, end exclusive. -/
structure ByteRange where
  start : Nat
  stop : Nat
  deriving Repr, DecidableEq

/-- The rest of the text from a byte offset on, if the offset lies between two characters. -/
def dropBytes? : Nat → Text → Option Text
  | 0, t => some t
  | _ + 1, [] => none
  | n + 1, c :: t => if c.utf8Size ≤ n + 1 then dropBytes? (n + 1 - c.utf8Size) t else none

/-- The first `n` bytes of the text, if the offset `n` lies between two characters. -/
def takeBytes? : Nat → Text → Option Text
  | 0, _ => some []
  | _ + 1, [] => none
  | n + 1, c :: t =>
    if c.utf8Size ≤ n + 1 then (takeBytes? (n + 1 - c.utf8Size) t).map (c :: ·) else none

/-- The bytes of a range, if it starts no later than it ends and both ends lie between two
characters of the text. -/
def slice? (t : Text) (r : ByteRange) : Option Text :=
  if r.start ≤ r.stop then
    (dropBytes? r.start t).bind (takeBytes? (r.stop - r.start))
  else none

theorem dropBytes?_byteLength (s t : Text) : dropBytes? (byteLength s) (s ++ t) = some t := by
  induction s with
  | nil => simp [dropBytes?]
  | cons c s ih =>
    have hc := Char.utf8Size_pos c
    obtain ⟨n, hn⟩ : ∃ n, byteLength (c :: s) = n + 1 := ⟨byteLength (c :: s) - 1, by simp; omega⟩
    have hn' : n + 1 - c.utf8Size = byteLength s := by simp at hn; omega
    rw [hn, List.cons_append, dropBytes?, if_pos (by simp at hn; omega), hn', ih]

theorem takeBytes?_byteLength (s t : Text) : takeBytes? (byteLength s) (s ++ t) = some s := by
  induction s with
  | nil => simp [takeBytes?]
  | cons c s ih =>
    have hc := Char.utf8Size_pos c
    obtain ⟨n, hn⟩ : ∃ n, byteLength (c :: s) = n + 1 := ⟨byteLength (c :: s) - 1, by simp; omega⟩
    have hn' : n + 1 - c.utf8Size = byteLength s := by simp at hn; omega
    rw [hn, List.cons_append, takeBytes?, if_pos (by simp at hn; omega), hn', ih]
    rfl

theorem slice?_append (s m t : Text) :
    slice? (s ++ m ++ t) ⟨byteLength s, byteLength s + byteLength m⟩ = some m := by
  have h : byteLength s + byteLength m - byteLength s = byteLength m := by omega
  simp [slice?, List.append_assoc, dropBytes?_byteLength, h, takeBytes?_byteLength]

end Text
end ContentSearch
