import ContentSearch.Match.EditDistance
import ContentSearch.Text.Words

/-!
Fuzzy matching of a term against the words of a text. Equal words have distance 0; a word that
contains the term has a tenth of the share of its characters that the term leaves over; any other
word has its edit distance divided by the longer length. A word matches when its distance is at
most the threshold of the matcher.
-/

namespace ContentSearch

/-- A matcher that accepts distances up to a threshold. -/
structure Matcher (α : Type) where
  threshold : α

namespace Matcher

variable {α : Type} [Scalar α]

/-- The matcher with the threshold moved into `[0, 1]`. -/
def ofThreshold (threshold : α) : Matcher α := ⟨Scalar.clampUnit threshold⟩

/-- The distance of a word for each of its characters that a term inside it does not cover, in
units of the word's length. -/
def containmentPenalty : α := Scalar.ofNat 1 / Scalar.ofNat 10

def accept (m : Matcher α) (distance : α) : Option α :=
  if distance ≤ m.threshold then some distance else none

/-- The distance of a lowercase term to a lowercase word, if it is accepted. Without `fuzzy` only
an equal word and a word that contains the term match. -/
def wordDistance? (m : Matcher α) (term word : Text) (fuzzy : Bool) : Option α :=
  if term = word then some (Scalar.ofNat 0)
  else if term.isEmpty || word.isEmpty then none
  else if Text.occursIn term word then
    m.accept (containmentPenalty *
      (Scalar.ofNat 1 - Scalar.ofNat term.length / Scalar.ofNat word.length))
  else if !fuzzy then none
  else
    -- The difference in length bounds the edit distance from below.
    let difference := max term.length word.length - min term.length word.length
    let bound : α := Scalar.ofNat difference / Scalar.ofNat (max term.length word.length)
    if m.threshold < bound then none
    else m.accept (EditDistance.normalized term word)

/-- The first of the nearest words to a lowercase term, with its distance. The search stops at a
distance of 0; `best?` is the nearest word so far. -/
def closestWordAfter? (m : Matcher α) (term : Text) (fuzzy : Bool) (best? : Option (Text × α)) :
    List Text → Option (Text × α)
  | [] => best?
  | word :: words =>
    match m.wordDistance? term word fuzzy with
    | none => m.closestWordAfter? term fuzzy best? words
    | some distance =>
      if distance == Scalar.ofNat 0 then some (word, Scalar.ofNat 0)
      else
        let nearer := match best? with
          | none => true
          | some best => decide (distance < best.2)
        m.closestWordAfter? term fuzzy (if nearer then some (word, distance) else best?) words

/-- The first of the nearest words to a lowercase term, with its distance. -/
def closestWord? (m : Matcher α) (term : Text) (words : List Text) (fuzzy : Bool) :
    Option (Text × α) :=
  m.closestWordAfter? term fuzzy none words

def isSingleWord (term : Text) : Bool := Text.segmentWords term == [term]

/-- The distance of a lowercase term to a field with the given lowercase text and words. A term
that is not a single word, such as `c++`, also matches as a part of the text. -/
def fieldDistance? (m : Matcher α) (term lower : Text) (words : List Text) (fuzzy : Bool) :
    Option α :=
  if term.isEmpty then none
  else if !isSingleWord term && Text.occursIn term lower then some (Scalar.ofNat 0)
  else (m.closestWord? term words fuzzy).map (·.2)

/-- How well a term matches a field, from 1 for distance 0 downwards; none if it does not. -/
def matchQuality? (m : Matcher α) (term lower : Text) (words : List Text) (fuzzy : Bool) :
    Option α :=
  ((m.fieldDistance? term lower words fuzzy).map (Scalar.ofNat 1 - ·)).filter
    fun quality => decide (Scalar.ofNat 0 < quality)

end Matcher
end ContentSearch
