import ContentSearch.Highlight.Excerpt
import ContentSearch.Highlight.Segment
import ContentSearch.Index.Basic
import ContentSearch.Match.Fuzzy

/-!
How a field that matched is shown: an excerpt around the match, and the places in the excerpt that
match. Where the query's own texts do not occur in the field, the match is the word nearest to one
of the terms.
-/

namespace ContentSearch

/-- A field that matched. -/
structure FieldMatch where
  field : Text
  excerpt : Text
  /-- The character ranges of the excerpt that match, end exclusive. -/
  positions : List (Nat × Nat)
  deriving Repr, DecidableEq

namespace FieldMatch

variable {α : Type} [Scalar α]

/-- The first of the nearest words of a list of words with their distances. -/
def nearest? : List (Text × α) → Option (Text × α)
  | [] => none
  | w :: rest =>
    match nearest? rest with
    | none => some w
    | some v => if v.2 < w.2 then some v else some w

/-- The byte range of the first word of a text with a lowercase form. -/
def wordRange? (t word : Text) : Option Text.ByteRange :=
  ((Text.wordsWithOffsets t).find? fun w => Text.lowercase w.2 = word).map fun (start, w) =>
    ⟨start, start + Text.byteLength w⟩

/-- The byte range, in the text of a field, of the word that is nearest to any of the terms. -/
def nearestRange? (m : Matcher α) (terms : List Text) (fuzzy : Bool) (f : IndexedField) :
    Option Text.ByteRange :=
  (nearest? (terms.filterMap fun term => m.closestWord? term f.words fuzzy)).bind fun (word, _) =>
    wordRange? f.text word

/-- The match of a field by one of its words, which is marked where it first occurs. -/
def ofWord (name t : Text) (r : Text.ByteRange) (maxLength : Nat) : Except Fault FieldMatch := do
  let word ← Text.slice t r
  let excerpt ← Excerpt.cut t (some r) maxLength
  let positions := ((Text.find? word excerpt).map fun n => (n, n + word.length)).toList
  return ⟨name, excerpt, positions⟩

/-- The match of a field by the pattern of the query. -/
def ofPattern (name : Text) (p : Pattern) (t : Text) (maxLength : Nat) :
    Except Fault FieldMatch := do
  let excerpt ← Excerpt.around p t maxLength
  return ⟨name, excerpt, ← p.positions excerpt⟩

/-- The match of a field by the pattern of a query if that occurs in the text, and otherwise by
the nearest word. -/
def ofField (m : Matcher α) (p : Pattern) (terms : List Text) (spec : ScoredField α)
    (f : IndexedField) (maxLength : Nat) : Except Fault FieldMatch :=
  match if p.occursIn f.text then none else nearestRange? m terms spec.fuzzy f with
  | some r => ofWord spec.name f.text r maxLength
  | none => ofPattern spec.name p f.text maxLength

end FieldMatch
end ContentSearch
