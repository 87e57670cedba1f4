import ContentSearch.Highlight.Pattern

/-!
Excerpts: windows of a bounded number of characters around a match, with an ellipsis on each side
where the text goes on.
-/

namespace ContentSearch

namespace Excerpt

def ellipsis : Text := "...".toList

def defaultLength : Nat := 200

/-- Where a window of `maxLength` of the `count` characters of a text starts: at the anchor if that
fills the window, otherwise so that the anchor's middle is the window's as far as the ends of the
text allow. -/
def windowStart (t : Text) (count maxLength : Nat) :
    Option Text.ByteRange → Except Fault Nat
  | none => .ok 0
  | some anchor => do
    let start := (← Text.slice t ⟨0, anchor.start⟩).length
    let length := (← Text.slice t anchor).length
    if maxLength ≤ length then return start
    let center ← addSizes start (length / 2)
    return min (center - maxLength / 2) (← subSizes count maxLength)

/-- A window of at most `maxLength` characters of a text, centred on a byte range. -/
def cut (t : Text) (anchor : Option Text.ByteRange) (maxLength : Nat) : Except Fault Text := do
  if maxLength = 0 then return []
  let count := t.length
  if count ≤ maxLength then return t
  let start ← windowStart t count maxLength anchor
  let stop := min (← addSizes start maxLength) count
  let window := (t.drop start).take (← subSizes stop start)
  return (if 0 < start then ellipsis else []) ++ window ++ (if stop < count then ellipsis else [])

/-- A window of a text centred on its first match, or at its start. -/
def around (p : Pattern) (t : Text) (maxLength : Nat) : Except Fault Text := do
  cut t (← p.firstMatch t) maxLength

/-- The excerpt of the first text with a match, or else of the first text that is not empty. -/
def first (p : Pattern) (texts : List Text) (maxLength : Nat) : Except Fault Text :=
  match (texts.find? p.occursIn).or (texts.find? fun t => !t.isEmpty) with
  | some t => around p t maxLength
  | none => .ok []

end Excerpt
end ContentSearch
