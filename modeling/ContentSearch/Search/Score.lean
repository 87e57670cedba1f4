import ContentSearch.Query.Basic
import ContentSearch.Search.FieldMatch

/-!
The score of an item: the weight of a field counts once for each phrase that it holds, and in
proportion to the quality of the match for each term that it matches; the sum is divided by what a
perfect match of everything in every field would give.
-/

namespace ContentSearch

variable {α : Type}

/-- What a query finds in one field. -/
structure FieldHits (α : Type) where
  /-- The terms that match, with the qualities of their matches. -/
  terms : List (Text × α)
  /-- The phrases that occur. -/
  phrases : List Text

namespace FieldHits

def found (h : FieldHits α) : Bool := !h.terms.isEmpty || !h.phrases.isEmpty

def texts (h : FieldHits α) : List Text := h.terms.map (·.1) ++ h.phrases

/-- What the hits in a field of some weight add to the score, in order. -/
def amounts [Scalar α] (weight : α) (h : FieldHits α) : List α :=
  h.terms.map (weight * ·.2) ++ h.phrases.map fun _ => weight

end FieldHits

/-- What scores the items of an index for a query. -/
structure Scorer (α : Type) where
  query : Query
  fields : List (ScoredField α)
  matcher : Matcher α
  pattern : Pattern
  excerptLength : Nat
  /-- What a perfect match would add up to. -/
  denominator : α

/-- What an item that matches is given. -/
structure Scored (α : Type) where
  score : α
  /-- The fields that contribute, in their order. -/
  matched : List FieldMatch
  /-- The terms and then the phrases that were found, in the order of the query. -/
  matchedTerms : List Text

namespace Scorer

variable [Scalar α]

def ofQuery [PatternCompiler] (x : Index α) (q : Query) (c : Config α) : Scorer α where
  query := q
  fields := x.fields
  matcher := .ofThreshold c.fuzzyThreshold
  pattern := .ofQuery q
  excerptLength := c.excerptLength
  denominator := x.totalWeight * Scalar.ofNat (max q.componentCount 1)

def hits (s : Scorer α) (spec : ScoredField α) (f : IndexedField) : FieldHits α :=
  if f.isEmpty then ⟨[], []⟩
  else
    { terms := s.query.terms.filterMap fun term =>
        (s.matcher.matchQuality? term f.lower f.words spec.fuzzy).map (term, ·)
      phrases := s.query.phrases.filter f.mentions }

/-- The fields of an item with their entries and with what the query finds in them. -/
def fieldHits (s : Scorer α) (e : IndexedItem) :
    List (ScoredField α × IndexedField × FieldHits α) :=
  (s.fields.zip e.fields).map fun (spec, f) => (spec, f, s.hits spec f)

/-- The sum of what the hits in all fields add to the score. -/
def total (s : Scorer α) (e : IndexedItem) : α :=
  ((s.fieldHits e).flatMap fun (spec, _, h) => h.amounts spec.weight).foldl (· + ·)
    (Scalar.ofNat 0)

/-- The score of an item, if it is a positive number. -/
def value? (s : Scorer α) (e : IndexedItem) : Option α :=
  let total := s.total e
  if total ≤ Scalar.ofNat 0 || decide (s.denominator ≤ Scalar.ofNat 0) then none
  else
    let score := Scalar.clampUnit (total / s.denominator)
    if Scalar.isFinite score && !decide (score ≤ Scalar.ofNat 0) then some score else none

/-- The terms and phrases of the query that are found in some field. -/
def matchedTerms (s : Scorer α) (e : IndexedItem) : List Text :=
  let found := (s.fieldHits e).flatMap fun (_, _, h) => h.texts
  (s.query.terms ++ s.query.phrases).filter found.contains

/-- The score of an item and how its match is shown, or none if nothing matches. -/
def score (s : Scorer α) (e : IndexedItem) : Except Fault (Option (Scored α)) :=
  match s.value? e with
  | none => .ok none
  | some score => do
    let contributing := (s.fieldHits e).filter fun (_, _, h) => h.found
    let matched ← contributing.mapM fun (spec, f, _) =>
      FieldMatch.ofField s.matcher s.pattern s.query.terms spec f s.excerptLength
    return some ⟨score, matched, s.matchedTerms e⟩

end Scorer
end ContentSearch
