import ContentSearch.Json.Basic
import ContentSearch.Number.Reading
import ContentSearch.Number.Word

/-!
The value of a number in a JSON document. Integers of at most 64 bits are exact. Any other number
is computed in double precision from its leading digits, as many as fit in 64 bits, and one or
more multiplications or divisions by powers of ten, so that its last bit may differ from the
nearest double.
-/

namespace ContentSearch.JsonNumber

/-- A number as it is written: a sign, the digits of its integer part and of its fraction, and the
sign and digits of its exponent. -/
structure Literal where
  negative : Bool
  whole : Text
  fraction : Option Text
  exponent : Option (Bool × Text)

def maxSignificand : Nat := wordSize - 1

/-- Appends digits to a significand as long as it fits; also counts the digits that were left
out. -/
def absorb (significand : Nat) : Text → Nat × Nat
  | [] => (significand, 0)
  | c :: ds =>
    let n := 10 * significand + (c.toNat - 48)
    if n ≤ maxSignificand then absorb n ds else (significand, ds.length + 1)

/-- The power of ten in double precision. -/
def powersOfTen : Array Float := ((List.range 309).map doublePowerOfTen).toArray

/-- `10^n` in double precision, for `n ≤ 308`. -/
def powerOfTen (n : Nat) : Float := powersOfTen.getD n 0

/-- `f · 10^e`, in steps of at most `10^308`; `none` where that is too large. -/
def scale? (f : Float) (e : Int) : Option Float :=
  if e.natAbs ≤ 308 then
    if 0 ≤ e then
      let g := f * powerOfTen e.natAbs
      if g.isInf then none else some g
    else some (f / powerOfTen e.natAbs)
  else if f == 0 then some f
  else if 0 ≤ e then none
  else scale? (f / powerOfTen 308) (e + 308)
  termination_by e.natAbs

def maxExponent : Nat := maxShort

/-- The double of a literal with a fraction, an exponent, or too many digits for an integer. -/
def Literal.double? (l : Literal) : Option Float :=
  let (significand, dropped) := absorb 0 l.whole
  let (significand, scale) : Nat × Int := match l.fraction with
    | none => (significand, dropped)
    | some ds =>
      let (n, rest) := absorb significand ds
      (n, dropped - (ds.length - rest : Nat))
  let signed (f : Float) := if l.negative then -f else f
  let f := (UInt64.ofNat significand).toFloat
  match l.exponent with
  | none => (scale? f scale).map signed
  | some (negative, ds) =>
    let power := digitsValue ds
    if maxExponent < power then
      if significand ≠ 0 && !negative then none else some (signed 0)
    else
      let power : Int := power
      let power := if negative then scale - power else scale + power
      let power := max (-maxShort - 1 : Int) (min power maxShort)
      (scale? f power).map signed

/-- The value of a literal. An integer is exact if it fits in 64 bits, signed when it is negative;
the negative zero is a double. -/
def Literal.value? (l : Literal) : Option JsonNumber :=
  match l.fraction, l.exponent with
  | none, none =>
    let n := digitsValue l.whole
    if l.negative then
      if n = 0 then some (.double (-0.0))
      else if n ≤ signedBound then some (.integer (-n))
      else l.double?.map .double
    else if n ≤ maxSignificand then some (.integer n)
    else l.double?.map .double
  | _, _ => l.double?.map .double

end ContentSearch.JsonNumber
