import ContentSearch.Highlight.Pattern

/-!
Highlighting: a text as a sequence of segments that match a pattern or do not, and the character
ranges of those that do.
-/

namespace ContentSearch

/-- A part of a text, and whether it matches. -/
structure Segment where
  text : Text
  highlighted : Bool
  deriving Repr, DecidableEq

namespace Pattern

/-- The segments of a text from byte offset `last` on, given the matches after it. -/
def segmentsFrom (t : Text) (last : Nat) : List Text.ByteRange → Except Fault (List Segment)
  | [] =>
    if last < Text.byteLength t then do
      return [⟨← Text.slice t ⟨last, Text.byteLength t⟩, false⟩]
    else .ok []
  | r :: rest => do
    let before ←
      if last < r.start then do
        let plain ← Text.slice t ⟨last, r.start⟩
        pure [Segment.mk plain false]
      else pure []
    let found ← Text.slice t r
    return before ++ ⟨found, true⟩ :: (← segmentsFrom t r.stop rest)

/-- The segments of a text in order. Without anything to seek the text is one segment. -/
def highlight (p : Pattern) (t : Text) : Except Fault (List Segment) := do
  if p.isEmpty then return [⟨t, false⟩]
  segmentsFrom t 0 (← p.ranges t)

/-- The character ranges, end exclusive, of the highlighted segments of a list that starts at a
character offset. -/
def positionsFrom (offset : Nat) : List Segment → List (Nat × Nat)
  | [] => []
  | s :: rest =>
    let stop := offset + s.text.length
    if s.highlighted then (offset, stop) :: positionsFrom stop rest else positionsFrom stop rest

def positions (p : Pattern) (t : Text) : Except Fault (List (Nat × Nat)) :=
  (p.highlight t).map (positionsFrom 0)

end Pattern
end ContentSearch
