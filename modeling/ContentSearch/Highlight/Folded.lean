import ContentSearch.Fault
import ContentSearch.Text.Case

/-!
Lowercase copies of texts that remember where each byte comes from. Lowering goes character by
character, so that a final sigma stays a plain one and `İ` becomes two characters.
-/

namespace ContentSearch

/-- A lowercase copy of a text. -/
structure Folded where
  lower : Text
  /-- For each byte of `lower`, the byte range of the character it comes from. Empty when every
  byte comes from the byte at its own offset. -/
  spans : Array Text.ByteRange

namespace Folded

def isAscii (t : Text) : Bool := t.all fun c => c.toNat < 128

/-- The lowercase copy of a text, character by character. -/
def lowerEach (t : Text) : Text := t.flatMap Text.lowercaseChar

/-- The origins of the bytes of the lowercase copy of a text that starts at a byte offset. -/
def origins (offset : Nat) : Text → List Text.ByteRange
  | [] => []
  | c :: t =>
    List.replicate (Text.byteLength (Text.lowercaseChar c)) ⟨offset, offset + c.utf8Size⟩ ++
      origins (offset + c.utf8Size) t

def ofText (t : Text) : Folded :=
  if isAscii t then ⟨Text.asciiLowercase t, #[]⟩ else ⟨lowerEach t, (origins 0 t).toArray⟩

/-- The byte range of the text that a byte range of the copy comes from. -/
def originRange (f : Folded) (r : Text.ByteRange) : Except Fault Text.ByteRange :=
  if f.spans.isEmpty || r.stop ≤ r.start then .ok r
  else
    match f.spans[r.start]?, f.spans[r.stop - 1]? with
    | some first, some last => .ok ⟨first.start, last.stop⟩
    | _, _ => .error (.badRange r)

end Folded
end ContentSearch
