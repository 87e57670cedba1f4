import ContentSearch.Highlight.Folded
import ContentSearch.Query.Basic
import ContentSearch.Text.Whitespace

/-!
What a query highlights. The terms, the phrases and the words of the phrases are sought without
regard to case; where several of them occur at one place the longest counts, and matches do not
overlap. They are sought by a pattern, which has to be compiled first; the compiler takes none that
is too large.
-/

namespace ContentSearch

namespace Highlight

/-- Whether one text comes before another in a pattern: the longer one first, and texts of equal
length in the order of their characters. -/
def comesBefore (a b : Text) : Bool :=
  if a.length = b.length then !decide (b < a) else decide (b.length < a.length)

/-- The list without the items that equal their predecessor. -/
def dropRepeated : List Text → List Text
  | [] => []
  | [a] => [a]
  | a :: b :: l => if a = b then dropRepeated (b :: l) else a :: dropRepeated (b :: l)

/-- The texts that a query highlights, in lowercase, without repetition, longest first. -/
def terms (q : Query) : List Text :=
  let whole := (q.terms ++ q.phrases).map Text.lowercase
  let words := q.phrases.flatMap fun p => (Text.words p).map Text.lowercase
  dropRepeated (((whole ++ words).filter fun t => !t.isEmpty).mergeSort comesBefore)

end Highlight

/-- A compiler of patterns, which decides about the size of what it compiles. -/
class PatternCompiler where
  /-- Whether the pattern for some texts is compiled. -/
  accepts : List Text → Bool

/-- The pattern for some texts. -/
structure Pattern where
  terms : List Text
  /-- Whether it was compiled. -/
  accepted : Bool
  deriving Repr, DecidableEq

namespace Pattern

def ofQuery [PatternCompiler] (q : Query) : Pattern :=
  let terms := Highlight.terms q
  ⟨terms, PatternCompiler.accepts terms⟩

/-- The texts that are sought, in the order in which they are tried at each place: none unless the
pattern was compiled. -/
def tried (p : Pattern) : List Text := if p.accepted then p.terms else []

def isEmpty (p : Pattern) : Bool := p.tried.isEmpty

/-- Whether a text starts with a term, up to simple case folding. -/
def startsWithFolded : (term t : Text) → Bool
  | [], _ => true
  | _ :: _, [] => false
  | a :: term, c :: t => Text.fold a == Text.fold c && startsWithFolded term t

/-- The number of characters of the first text that is tried and that a text starts with. -/
def matchLength? (p : Pattern) (t : Text) : Option Nat :=
  (p.tried.find? fun term => startsWithFolded term t).map List.length

/-- The byte ranges of the matches in a text that starts at a byte offset: the leftmost one, then
those in the text after it. -/
def matchesFrom (p : Pattern) (offset : Nat) : Text → List Text.ByteRange
  | [] => []
  | c :: t =>
    match p.matchLength? (c :: t) with
    | none => p.matchesFrom (offset + c.utf8Size) t
    | some n =>
      let stop := offset + Text.byteLength (c :: t.take (n - 1))
      ⟨offset, stop⟩ :: p.matchesFrom stop (t.drop (n - 1))
  termination_by t => t.length
  decreasing_by all_goals (simp only [List.length_cons, List.length_drop]; omega)

def foldedMatches (p : Pattern) (f : Folded) : List Text.ByteRange := p.matchesFrom 0 f.lower

/-- The ranges in order with the parts before `last`, and before the end of an earlier one, cut
off; nothing is left of some. -/
def clip (last : Nat) : List Text.ByteRange → List Text.ByteRange
  | [] => []
  | r :: rest =>
    let start := max r.start last
    if r.stop ≤ start then clip last rest else ⟨start, r.stop⟩ :: clip r.stop rest

/-- The byte ranges of a text that match, in order and without overlap. -/
def ranges (p : Pattern) (t : Text) : Except Fault (List Text.ByteRange) := do
  let f := Folded.ofText t
  return clip 0 (← (p.foldedMatches f).mapM f.originRange)

def occursIn (p : Pattern) (t : Text) : Bool := !(p.foldedMatches (Folded.ofText t)).isEmpty

def firstMatch (p : Pattern) (t : Text) : Except Fault (Option Text.ByteRange) :=
  let f := Folded.ofText t
  match p.foldedMatches f with
  | [] => .ok none
  | r :: _ => (f.originRange r).map some

end Pattern
end ContentSearch
