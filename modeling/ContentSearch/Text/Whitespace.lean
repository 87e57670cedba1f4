import ContentSearch.Text.Basic
import ContentSearch.Text.Ranges

/-!
White space: the property `White_Space`, trimming, and the words between white space.
-/

namespace ContentSearch.Text

/-- The characters with the property `White_Space`. -/
def whitespaceRanges : List (Nat × Nat) :=
  [(0x9, 0xD), (0x20, 0x20), (0x85, 0x85), (0xA0, 0xA0), (0x1680, 0x1680), (0x2000, 0x200A),
   (0x2028, 0x2029), (0x202F, 0x202F), (0x205F, 0x205F), (0x3000, 0x3000)]

def isBlank (c : Char) : Bool := inRanges c.toNat whitespaceRanges

def trimStart (t : Text) : Text := t.dropWhile isBlank

def trimEnd (t : Text) : Text := (t.reverse.dropWhile isBlank).reverse

def trim (t : Text) : Text := trimEnd (trimStart t)

/-- The pieces of a text between white space, empty ones left out. -/
def words (t : Text) : List Text := (splitOn isBlank t).filter fun w => !w.isEmpty

end ContentSearch.Text
