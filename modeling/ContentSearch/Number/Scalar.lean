/-!
The numbers that scores are made of. Weights, distances and scores are computed in single
precision; everything that computes them is stated over any `Scalar`, so that the same definitions
can be read over exact rationals.
-/

namespace ContentSearch

/-- A number type for weights, distances and scores. -/
class Scalar (α : Type) extends Add α, Sub α, Mul α, Div α, BEq α, LT α, LE α where
  ofNat : Nat → α
  /-- What a sum of no numbers is. -/
  emptySum : α
  isFinite : α → Bool
  decideLT : DecidableLT α
  decideLE : DecidableLE α

namespace Scalar

variable {α : Type} [Scalar α]

instance : DecidableLT α := decideLT
instance : DecidableLE α := decideLE

/-- The number, or the nearer end of `[0, 1]` where it lies outside. -/
def clampUnit (x : α) : α :=
  if x < ofNat 0 then ofNat 0 else if ofNat 1 < x then ofNat 1 else x

/-- The sum of a list, added from the left. -/
def sum (xs : List α) : α := xs.foldl (· + ·) emptySum

end Scalar

/-- Single precision, where a sum of no numbers is the zero that adding leaves unchanged. -/
instance : Scalar Float32 where
  ofNat := Float32.ofNat
  emptySum := -0.0
  isFinite := Float32.isFinite
  decideLT := inferInstance
  decideLE := inferInstance

/-- Exact rationals. -/
instance : Scalar Rat where
  ofNat n := n
  emptySum := 0
  isFinite _ := true
  decideLT := inferInstance
  decideLE := inferInstance

end ContentSearch
