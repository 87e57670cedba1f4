import ContentSearch.Text.Case
import ContentSearch.Text.AlphanumericTable
import ContentSearch.Text.WordBreakTable

/-!
Words of a text by the default word boundaries of Unicode (annex 29): `segments` cuts a text at
its word boundaries, `wordsWithOffsets` keeps the segments that hold a letter or a digit, and
`tokens` gives their lowercase forms.
-/

namespace ContentSearch.Text

/-- The classes of characters that the word boundaries depend on. -/
inductive WordClass where
  | carriageReturn | lineFeed | newline
  | letter | hebrewLetter | numeric | katakana | connector
  | midLetter | midNum | midNumLet | singleQuote | doubleQuote
  | extend | format | joiner | segmentSpace | regionalIndicator | other
  deriving Repr, DecidableEq

def wordClass (c : Char) : WordClass :=
  let n := c.toNat
  if n = 0x0D then .carriageReturn
  else if n = 0x0A then .lineFeed
  else if n = 0x0B || n = 0x0C || n = 0x85 || n = 0x2028 || n = 0x2029 then .newline
  else if n = 0x22 then .doubleQuote
  else if n = 0x27 then .singleQuote
  else if n = 0x200D then .joiner
  else if 0x1F1E6 ≤ n && n ≤ 0x1F1FF then .regionalIndicator
  else if inRanges n letterRanges then .letter
  else if inRanges n numericRanges then .numeric
  else if inRanges n connectorRanges then .connector
  else if inRanges n segmentSpaceRanges then .segmentSpace
  else if inRanges n midLetterRanges then .midLetter
  else if inRanges n midNumRanges then .midNum
  else if inRanges n midNumLetRanges then .midNumLet
  else if inRanges n katakanaRanges then .katakana
  else if inRanges n hebrewLetterRanges then .hebrewLetter
  else if inRanges n extendRanges then .extend
  else if inRanges n formatRanges then .format
  else .other

def isPictograph (c : Char) : Bool := inRanges c.toNat pictographRanges

def isAlphanumeric (c : Char) : Bool := inRanges c.toNat alphanumericRanges

/-- Whether a class is passed over inside a segment. -/
def WordClass.isPassedOver : WordClass → Bool
  | .extend | .format | .joiner => true
  | _ => false

/-! ## segments -/

/-- What a segment ends with so far. `awaitsLetter`, `awaitsHebrewLetter` and `awaitsNumeric`
follow a mark that belongs to the segment only if such a character comes next. -/
inductive SegmentState where
  | letter | hebrewLetter | numeric | katakana | connector
  | hebrewQuote | awaitsLetter | awaitsHebrewLetter | awaitsNumeric
  | segmentSpace | joiner | halfFlag | flag | pictograph | marked
  deriving Repr, DecidableEq

/-- Whether the segment goes back to before its last mark unless the awaited character comes. -/
def SegmentState.awaits : SegmentState → Bool
  | .awaitsLetter | .awaitsHebrewLetter | .awaitsNumeric => true
  | _ => false

/-- What a character of a class, none that is passed over, makes of a segment: it goes on in a new
state, or ends before the character (`none`). `skipped` tells whether the segment has passed over
a character. -/
def SegmentState.next (skipped : Bool) : SegmentState → WordClass → Option SegmentState
  | .letter, .letter | .hebrewLetter, .letter | .numeric, .letter | .connector, .letter
  | .awaitsLetter, .letter | .hebrewQuote, .letter => some .letter
  | .letter, .hebrewLetter | .hebrewLetter, .hebrewLetter | .numeric, .hebrewLetter
  | .connector, .hebrewLetter | .awaitsLetter, .hebrewLetter | .hebrewQuote, .hebrewLetter
  | .awaitsHebrewLetter, .hebrewLetter => some .hebrewLetter
  | .letter, .numeric | .hebrewLetter, .numeric | .numeric, .numeric | .connector, .numeric
  | .awaitsNumeric, .numeric => some .numeric
  | .katakana, .katakana | .connector, .katakana => some .katakana
  | .letter, .connector | .hebrewLetter, .connector | .numeric, .connector
  | .katakana, .connector | .connector, .connector => some .connector
  | .hebrewLetter, .doubleQuote => some .awaitsHebrewLetter
  | .hebrewLetter, .singleQuote => some .hebrewQuote
  | .letter, .singleQuote | .letter, .midLetter | .letter, .midNumLet
  | .hebrewLetter, .midLetter | .hebrewLetter, .midNumLet => some .awaitsLetter
  | .numeric, .singleQuote | .numeric, .midNum | .numeric, .midNumLet => some .awaitsNumeric
  | .segmentSpace, .segmentSpace => if skipped then none else some .segmentSpace
  | .halfFlag, .regionalIndicator => some .flag
  | _, _ => none

/-- The number of characters of a text that belong to the segment before it. Of the segment, `n`
characters were counted, and `saved` of them come before the mark that awaits a character. A
pictograph directly after a joiner (`afterJoiner`) goes on with any segment. -/
def SegmentState.extent (state : SegmentState) (afterJoiner skipped : Bool) (n saved : Nat) :
    Text → Nat
  | [] => if state.awaits then saved else n
  | c :: t =>
    let k := wordClass c
    if k.isPassedOver then state.extent (k = .joiner) true (n + 1) saved t
    else if afterJoiner && isPictograph c then
      SegmentState.extent .pictograph false skipped (n + 1) saved t
    else match state.next skipped k with
      | none => if state.awaits then saved else n
      | some state' => state'.extent false skipped (n + 1) (if state'.awaits then n else saved) t

/-- The number of characters of `t` that belong to the segment that `c` starts. -/
def segmentExtent (c : Char) (t : Text) : Nat :=
  let go (state : SegmentState) := state.extent false false 0 0 t
  match wordClass c with
  | .carriageReturn => if t.head? = some '\n' then 1 else 0
  | .lineFeed | .newline => 0
  | .letter => go .letter
  | .hebrewLetter => go .hebrewLetter
  | .numeric => go .numeric
  | .katakana => go .katakana
  | .connector => go .connector
  | .regionalIndicator => go .halfFlag
  | .segmentSpace => go .segmentSpace
  | .joiner => SegmentState.extent .joiner true false 0 0 t
  | _ => if t.head?.any fun d => (wordClass d).isPassedOver then go .marked else 0

def segments : Text → List Text
  | [] => []
  | c :: t => (c :: t.take (segmentExtent c t)) :: segments (t.drop (segmentExtent c t))
  termination_by t => t.length
  decreasing_by simp only [List.length_drop, List.length_cons]; omega

theorem flatten_segments (t : Text) : (segments t).flatten = t := by
  fun_induction segments t with
  | case1 => rfl
  | case2 c t ih => simp [ih]

/-! ## words -/

/-- Pieces of a text in order, each with the byte offset where it starts. -/
def withOffsets (start : Nat) : List Text → List (Nat × Text)
  | [] => []
  | w :: ws => (start, w) :: withOffsets (start + byteLength w) ws

/-- The segments that hold a letter or a digit, each with its byte offset in the text. -/
def wordsWithOffsets (t : Text) : List (Nat × Text) :=
  (withOffsets 0 (segments t)).filter fun w => w.2.any isAlphanumeric

def segmentWords (t : Text) : List Text := (segments t).filter (·.any isAlphanumeric)

/-- The words of a text in lowercase, each word taken on its own. -/
def tokens (t : Text) : List Text := (segmentWords t).map lowercase

end ContentSearch.Text
