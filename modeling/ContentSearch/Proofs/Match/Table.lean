import ContentSearch.Match.EditDistance
import ContentSearch.Proofs.Match.Alignments

/-!
# The table of edit distances

Each cell of the table is the least cost of an alignment of two prefixes.  A prefix is given backwards here, so that its last
character, which the cell is computed from, comes first.

* `rowFrom`, `swapRow`: the rows of the table by least costs;
* `cells_eq`, `nextRow_eq`, `lastRow_eq`: the rows that are computed are these;
* `distance_eq_leastCost`, `distance_isLeast`: so the distance of two texts is the least cost of an alignment.
-/

namespace ContentSearch.EditDistance

/-- The cells of the row of the prefix `p`, from the prefix `pre` of the other text on; `b` is the rest of that text. -/
noncomputable def rowFrom (p : Text) : (pre b : Text) → Row
  | pre, [] => [leastCost p pre]
  | pre, d :: b => leastCost p pre :: rowFrom p (d :: pre) b

/-- The cells of the row of the prefix before `p`, from the column before `pre` on; none if there is no such row. -/
noncomputable def swapRow : (p pre b : Text) → Row
  | [], _, _ => []
  | _ :: p, [], b => rowFrom p [] b
  | _ :: p, e :: pre, b => rowFrom p pre (e :: b)

theorem rowFrom_eq_cons (p pre b : Text) : rowFrom p pre b = leastCost p pre :: (rowFrom p pre b).tail := by
  cases b <;> rfl

theorem rowFrom_nil (pre b : Text) : rowFrom [] pre b = List.range' pre.length (b.length + 1) := by
  induction b generalizing pre with
  | nil => rw [rowFrom, leastCost_nil_left]; rfl
  | cons d b ih =>
    rw [rowFrom, ih, leastCost_nil_left, List.length_cons, List.length_cons]
    rfl

theorem getLast?_rowFrom (p pre b : Text) : (rowFrom p pre b).getLast? = some (leastCost p (b.reverse ++ pre)) := by
  induction b generalizing pre with
  | nil => rfl
  | cons d b ih =>
    rw [rowFrom, rowFrom_eq_cons, List.getLast?_cons_cons, ← rowFrom_eq_cons, ih, List.reverse_cons, List.append_assoc]
    rfl

/-- A cell, from the cells to the left, above both and above, and from the one before a swap if there is such a cell. -/
def cell (c d : Char) (before? d? : Option Char) (left diagonal up : Nat) : (swapped? : Option Nat) → Nat
  | some swapped =>
    let plain := min (min (up + 1) (left + 1)) (diagonal + if c = d then 0 else 1)
    if d? = some c ∧ before? = some d then min plain (swapped + 1) else plain
  | none => min (min (up + 1) (left + 1)) (diagonal + if c = d then 0 else 1)

theorem cells_cons (c d : Char) (before? d? : Option Char) (left diagonal up : Nat) (above swaps : Row) (b : Text) :
    cells c before? d? left diagonal (up :: above) swaps (d :: b) =
      cell c d before? d? left diagonal up swaps.head? ::
        cells c before? (some d) (cell c d before? d? left diagonal up swaps.head?) up above
          (if d?.isSome then swaps.tail else swaps) b := by
  rw [cells]
  cases swaps <;> rfl

theorem cell_eq (c d : Char) (p pre b : Text) :
    cell c d p.head? pre.head? (leastCost (c :: p) pre) (leastCost p pre) (leastCost p (d :: pre))
      (swapRow p pre (d :: b)).head? = leastCost (c :: p) (d :: pre) := by
  cases p with
  | nil => exact (leastCost_cons_cons (by simp)).symm
  | cons x p =>
    cases pre with
    | nil =>
      have hswapped : (swapRow (x :: p) [] (d :: b)).head? = some (leastCost p []) := rfl
      have hplain : leastCost (c :: x :: p) [d] = plainCost c d (x :: p) [] := leastCost_cons_cons (by simp)
      rw [hswapped, cell, hplain]
      simp [plainCost]
    | cons e pre =>
      have hswapped : (swapRow (x :: p) (e :: pre) (d :: b)).head? = some (leastCost p pre) := rfl
      rw [hswapped, cell]
      simp only [List.head?_cons, Option.some.injEq]
      split
      · next h =>
        obtain ⟨rfl, rfl⟩ := h
        exact (leastCost_swap ..).symm
      · next h =>
        refine (leastCost_cons_cons ?_).symm
        rintro p' q' hp hq
        exact h ⟨(List.cons.inj hq).1, (List.cons.inj hp).1⟩

/-- The cells to the right of a column, by induction on the rest of the other text. -/
theorem cells_eq (c : Char) (p pre b : Text) :
    cells c p.head? pre.head? (leastCost (c :: p) pre) (leastCost p pre) (rowFrom p pre b).tail (swapRow p pre b) b =
      (rowFrom (c :: p) pre b).tail := by
  induction b generalizing pre with
  | nil => rfl
  | cons d b ih =>
    have habove : (rowFrom p pre (d :: b)).tail = leastCost p (d :: pre) :: (rowFrom p (d :: pre) b).tail :=
      rowFrom_eq_cons ..
    have hrow : (rowFrom (c :: p) pre (d :: b)).tail =
        leastCost (c :: p) (d :: pre) :: (rowFrom (c :: p) (d :: pre) b).tail :=
      rowFrom_eq_cons ..
    have hswaps : (if pre.head?.isSome then (swapRow p pre (d :: b)).tail else swapRow p pre (d :: b)) =
        swapRow p (d :: pre) b := by
      cases p with
      | nil => simp [swapRow]
      | cons x p => cases pre <;> rfl
    rw [habove, hrow, cells_cons, cell_eq, hswaps, ← ih]
    rfl

/-- The row after the row of the prefix `p`. -/
theorem nextRow_eq (c : Char) (p b : Text) {older? : Option Row} (h : older?.getD [] = swapRow p [] b) :
    nextRow c p.head? older? (rowFrom p [] b) b = rowFrom (c :: p) [] b := by
  rw [rowFrom_eq_cons p, rowFrom_eq_cons (c :: p), nextRow, h, ← cells_eq, leastCost_nil_right, leastCost_nil_right]
  rfl

/-- The last row, by induction on the text that is left after the prefix `p`. -/
theorem lastRow_eq (p a b : Text) {older? : Option Row} (h : older?.getD [] = swapRow p [] b) :
    lastRow b p.head? older? (rowFrom p [] b) a = rowFrom (a.reverse ++ p) [] b := by
  induction a generalizing p older? with
  | nil => rfl
  | cons c a ih =>
    rw [lastRow, nextRow_eq c p b h, List.reverse_cons, List.append_assoc]
    exact ih (c :: p) rfl

/-- The distance is the least cost of an alignment. -/
theorem distance_eq_leastCost (a b : Text) : distance a b = leastCost a b := by
  have hfirst : List.range (b.length + 1) = rowFrom [] [] b := by
    rw [rowFrom_nil, List.range_eq_range']
    rfl
  have hlast : lastRow b none none (rowFrom [] [] b) a = rowFrom (a.reverse ++ []) [] b := lastRow_eq [] a b rfl
  rw [distance, hfirst, hlast, getLast?_rowFrom, Option.getD_some, List.append_nil, List.append_nil, leastCost_reverse]

/-- **The edit distance is the optimal string alignment distance**: for every two texts, the least cost of the steps from
left to right that keep, delete, insert or substitute a character or swap two neighbours, each character of both texts
being used up by one step. -/
theorem distance_isLeast (a b : Text) :
    IsLeast {n | ∃ edits : List Edit, edits.flatMap Edit.source = a ∧ edits.flatMap Edit.target = b ∧
      (edits.map Edit.cost).sum = n} (distance a b) := by
  rw [distance_eq_leastCost]
  constructor
  · obtain ⟨l, hl⟩ := exists_alignment a b
    exact ⟨l.edits, l.source_eq, l.target_eq, hl⟩
  · rintro n ⟨edits, hsource, htarget, rfl⟩
    exact leastCost_le ⟨edits, hsource, htarget⟩

end ContentSearch.EditDistance
