import ContentSearch.Highlight.Segment

/-!
Marking matches in plain text by square brackets, from segments or from character ranges.
-/

namespace ContentSearch.Mark

def bracket (t : Text) : Text := '[' :: t ++ [']']

/-- The text of the segments with the highlighted ones in brackets. -/
def segments (l : List Segment) : Text :=
  l.flatMap fun s => if s.highlighted then bracket s.text else s.text

/-- The rest of a text from position `pos` on with ranges of characters in brackets. What a range
covers before `pos`, before the end of an earlier range, or past the end of the text is left out. -/
def rangesFrom (t : Text) (pos : Nat) : List (Nat × Nat) → Except Fault Text
  | [] => itemsBetween t pos t.length
  | (start, stop) :: rest => do
    let start := min (max start pos) t.length
    let stop := min stop t.length
    if stop ≤ start then rangesFrom t pos rest
    else
      let before ← itemsBetween t pos start
      let inside ← itemsBetween t start stop
      return before ++ bracket inside ++ (← rangesFrom t stop rest)

/-- A text with ranges of characters in brackets. -/
def ranges (t : Text) (l : List (Nat × Nat)) : Except Fault Text := rangesFrom t 0 l

end ContentSearch.Mark
