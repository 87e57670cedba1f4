import ContentSearch.Number.Binary

/-!
The shortest decimal that reads back: of all decimals nearer to a binary number than to its
neighbours, one with the fewest digits, and of those the nearest one.
-/

namespace ContentSearch

/-- The decimal `digits · 10^exponent`. -/
structure Decimal where
  digits : Nat
  exponent : Int
  deriving Repr, DecidableEq

/-- The exponent `e` with `10^e ≤ num / den < 10^(e + 1)`, for positive numbers. -/
def floorLog10 (num den : Nat) : Int :=
  if den ≤ num then (Nat.toDigits 10 (num / den)).length - 1
  else
    let n := (Nat.toDigits 10 (den / num)).length
    if den ≤ num * Nat.pow 10 (n - 1) then -(n - 1 : Nat) else -n

/-- The positive number `m · 2^q` of a format in units of a quarter of `2^q`: the ends of the
interval of the reals nearest to it. The gap below is half as wide where the exponent changes. -/
def BinaryFormat.interval (f : BinaryFormat) (m : Nat) (q : Int) : Nat × Nat :=
  (4 * m - (if m = f.topBit ∧ f.minExponent < q then 1 else 2), 4 * m + 2)

/-- Whether the decimal `d · 10^e` lies in the interval of `m · 2^q`, whose ends belong to it when
`m` is even. -/
def BinaryFormat.covers (f : BinaryFormat) (m : Nat) (q : Int) (d : Nat) (e : Int) : Bool :=
  let (low, high) := f.interval m q
  let (a, b) := scaleQuotient 10 d 1 e
  let (c, s) := scaleQuotient 2 1 1 (q - 2)
  if m % 2 = 0 then low * c * b ≤ a * s && a * s ≤ high * c * b
  else low * c * b < a * s && a * s < high * c * b

/-- The decimal with `n` digits that lies in the interval of `m · 2^q`, the nearest one if there
are two, the even one if they are equally near. -/
def BinaryFormat.decimalOfLength? (f : BinaryFormat) (m : Nat) (q : Int) (n : Nat) :
    Option Decimal :=
  let (num, den) := scaleQuotient 2 m 1 q
  let e := floorLog10 num den - n + 1
  let (a, b) := scaleQuotient 10 num den (-e)
  let below := a / b
  let hitBelow := f.covers m q below e
  let hitAbove := f.covers m q (below + 1) e
  if hitBelow && hitAbove then some ⟨roundQuotient a b, e⟩
  else if hitBelow then some ⟨below, e⟩
  else if hitAbove then some ⟨below + 1, e⟩
  else none

/-- The shortest decimal that reads back as the positive number `m · 2^q`. Seventeen digits are
enough for every format of up to 53 bits. -/
def BinaryFormat.shortest (f : BinaryFormat) (m : Nat) (q : Int) : Decimal :=
  ((List.range 17).findSome? fun n => f.decimalOfLength? m q (n + 1)).getD ⟨m, 0⟩

def Decimal.normalize (d : Decimal) : Decimal :=
  if h : d.digits = 0 then ⟨0, 0⟩
  else if d.digits % 10 = 0 then Decimal.normalize ⟨d.digits / 10, d.exponent + 1⟩
  else d
  termination_by d.digits
  decreasing_by omega

end ContentSearch
