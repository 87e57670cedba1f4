import ContentSearch.Text.Basic
import ContentSearch.Number.Scalar

/-!
The optimal string alignment distance: the least number of deletions, insertions, substitutions
and swaps of two neighbours that turn one text into another, no character being edited twice. The
table of the distances of all pairs of prefixes is filled row by row.
-/

namespace ContentSearch.EditDistance

/-- One row of the table: for each prefix of `b`, in order, its distance to a prefix of `a`. -/
abbrev Row := List Nat

/-- The cells of a row after its first. `c` is the last character of the prefix of `a` of this row
and `before?` the one before it. `d?` is the character of `b` before `b`, `left` the cell before,
`diagonal` the cell above it, `above` the cells above from there on. `swaps` are the cells two rows
up, from two columns before on. -/
def cells (c : Char) (before? : Option Char) : (d? : Option Char) → (left diagonal : Nat) →
    (above swaps : Row) → (b : Text) → Row
  | _, _, _, _, _, [] => []
  | _, _, _, [], _, _ => []
  | d?, left, diagonal, up :: above, swaps, d :: b =>
    let cost := if c = d then 0 else 1
    let plain := min (min (up + 1) (left + 1)) (diagonal + cost)
    let cell := match swaps.head? with
      | some swapped => if d? = some c ∧ before? = some d then min plain (swapped + 1) else plain
      | none => plain
    let swaps := if d?.isSome then swaps.tail else swaps
    cell :: cells c before? (some d) cell up above swaps b

/-- The row after the row `previous`, which follows `older?`. -/
def nextRow (c : Char) (before? : Option Char) (older? : Option Row) (previous : Row) (b : Text) :
    Row :=
  match previous with
  | [] => []
  | first :: rest => (first + 1) :: cells c before? none (first + 1) first rest (older?.getD []) b

/-- The last row of the table for the rest of `a` after the prefix whose row is `previous`. -/
def lastRow (b : Text) : (before? : Option Char) → (older? : Option Row) → (previous : Row) →
    (a : Text) → Row
  | _, _, previous, [] => previous
  | before?, older?, previous, c :: a =>
    lastRow b (some c) (some previous) (nextRow c before? older? previous b) a

/-- The optimal string alignment distance of two texts. -/
def distance (a b : Text) : Nat :=
  (lastRow b none none (List.range (b.length + 1)) a).getLast?.getD 0

/-- The distance divided by the longer length; 0 for two empty texts. -/
def normalized {α : Type} [Scalar α] (a b : Text) : α :=
  let longer := max a.length b.length
  if longer = 0 then Scalar.ofNat 0
  else Scalar.ofNat (distance a b) / Scalar.ofNat longer

end ContentSearch.EditDistance
