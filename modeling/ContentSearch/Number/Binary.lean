/-!
Binary floating point formats: the value of a bit pattern as `m · 2^q`, and the bit pattern
nearest to a quotient of two natural numbers, a tie going to the even one.
-/

namespace ContentSearch

/-- A binary format: significands have `precision` bits, and exponents of their last bit run from
`minExponent` to `maxExponent`. -/
structure BinaryFormat where
  precision : Nat
  minExponent : Int
  maxExponent : Int
  deriving Repr, DecidableEq

/-- A number of a binary format. -/
inductive BinaryNumber where
  | finite (negative : Bool) (significand : Nat) (exponent : Int)
  | infinite (negative : Bool)
  | notANumber
  deriving Repr, DecidableEq

namespace BinaryFormat

def single : BinaryFormat := ⟨24, -149, 104⟩

def double : BinaryFormat := ⟨53, -1074, 971⟩

def exponentBits (f : BinaryFormat) : Nat := (f.maxExponent - f.minExponent + 2).toNat.log2 + 1

/-- The least significand that has all bits. It is not stored in a bit pattern. -/
def topBit (f : BinaryFormat) : Nat := Nat.pow 2 (f.precision - 1)

def exponentCount (f : BinaryFormat) : Nat := Nat.pow 2 f.exponentBits

/-- The number of bit patterns without a sign. -/
def signBit (f : BinaryFormat) : Nat := f.exponentCount * f.topBit

/-- The number that a bit pattern stands for. -/
def decode (f : BinaryFormat) (bits : Nat) : BinaryNumber :=
  let fraction := bits % f.topBit
  let field := bits / f.topBit % f.exponentCount
  let negative := bits / f.signBit % 2 = 1
  if field = f.exponentCount - 1 then
    if fraction = 0 then .infinite negative else .notANumber
  else if field = 0 then .finite negative fraction f.minExponent
  else .finite negative (f.topBit + fraction) (f.minExponent + field - 1)

/-- The bit pattern of a number whose significand has at most `precision` bits, and fewer only at
the least exponent. -/
def encode (f : BinaryFormat) : BinaryNumber → Nat
  | .finite negative m q =>
    let sign := if negative then f.signBit else 0
    if m < f.topBit then sign + m else sign + (q - f.minExponent).toNat * f.topBit + m
  | .infinite negative =>
    (if negative then f.signBit else 0) + (f.exponentCount - 1) * f.topBit
  | .notANumber => (f.exponentCount - 1) * f.topBit + f.topBit / 2

end BinaryFormat

/-- The natural number nearest to `num / den`, a tie going to the even one. -/
def roundQuotient (num den : Nat) : Nat :=
  let q := num / den
  let r := num % den
  if 2 * r < den then q
  else if den < 2 * r then q + 1
  else if q % 2 = 0 then q else q + 1

/-- The numerator and denominator of `num / den · b^e`. -/
def scaleQuotient (b : Nat) (num den : Nat) (e : Int) : Nat × Nat :=
  if 0 ≤ e then (num * Nat.pow b e.toNat, den) else (num, den * Nat.pow b (-e).toNat)

/-- The exponent `e` with `2^e ≤ num / den < 2^(e + 1)`. -/
def floorLog2 (num den : Nat) : Int :=
  let e : Int := num.log2 - den.log2
  let (a, b) := scaleQuotient 2 num den (-e)
  if a < b then e - 1 else e

/-- The number of a format nearest to the quotient of two positive numbers, infinite where that
would need a larger exponent than the format has. -/
def BinaryFormat.nearest (f : BinaryFormat) (negative : Bool) (num den : Nat) : BinaryNumber :=
  let q := max f.minExponent (floorLog2 num den - (f.precision - 1 : Nat))
  let (a, b) := scaleQuotient 2 num den (-q)
  let m := roundQuotient a b
  let (m, q) := if m = 2 * f.topBit then (f.topBit, q + 1) else (m, q)
  if f.maxExponent < q then .infinite negative else .finite negative m q

end ContentSearch
