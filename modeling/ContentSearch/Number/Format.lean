import ContentSearch.Text.Basic
import ContentSearch.Number.Shortest

/-!
Numbers as text. `singleText` and `doubleText` write the shortest digits that read back, always in
positional notation; `singleJsonText` and `doubleJsonText` write the same digits as a JSON number,
with an exponent outside a range of magnitudes; `singleFixedText` writes a fixed number of places.
-/

namespace ContentSearch

def natText (n : Nat) : Text := Nat.toDigits 10 n

def intText (i : Int) : Text := if i < 0 then '-' :: natText i.natAbs else natText i.natAbs

namespace Decimal

/-- The exponent of the first digit. -/
def magnitude (d : Decimal) : Int := d.exponent + (natText d.digits).length - 1

/-- Positional notation without a fraction where it has none. -/
def positional (d : Decimal) : Text :=
  let digits := natText d.digits
  if 0 ≤ d.exponent then digits ++ List.replicate d.exponent.toNat '0'
  else
    let places := (-d.exponent).toNat
    if places < digits.length then
      digits.take (digits.length - places) ++ '.' :: digits.drop (digits.length - places)
    else '0' :: '.' :: List.replicate (places - digits.length) '0' ++ digits

/-- Scientific notation with a signed exponent. -/
def scientific (d : Decimal) : Text :=
  let e := d.magnitude
  let exponent := 'e' :: (if e < 0 then '-' else '+') :: natText e.natAbs
  match natText d.digits with
  | [] => exponent
  | [c] => c :: exponent
  | c :: rest => c :: '.' :: rest ++ exponent

end Decimal

/-- How the numbers of a format are written in JSON: positional notation for the magnitudes from
`least` to `greatest`, with `.0` after a whole number, scientific notation for the others. -/
structure JsonNumberStyle where
  least : Int
  greatest : Int

def JsonNumberStyle.double : JsonNumberStyle := ⟨-5, 15⟩

def JsonNumberStyle.single : JsonNumberStyle := ⟨-6, 12⟩

/-- The text of a positive decimal in a style. -/
def JsonNumberStyle.write (s : JsonNumberStyle) (d : Decimal) : Text :=
  if s.least ≤ d.magnitude && d.magnitude ≤ s.greatest then
    if 0 ≤ d.exponent then d.positional ++ ".0".toList else d.positional
  else d.scientific

/-- The text of a number, the digits of a nonzero finite one written by `write`. -/
def BinaryFormat.textWith (f : BinaryFormat) (zero : Text) (write : Decimal → Text) :
    BinaryNumber → Text
  | .finite negative m q =>
    let body := if m = 0 then zero else write (f.shortest m q).normalize
    if negative then '-' :: body else body
  | .infinite negative => if negative then "-inf".toList else "inf".toList
  | .notANumber => "NaN".toList

def singleNumber (x : Float32) : BinaryNumber := BinaryFormat.single.decode x.toBits.toNat

def doubleNumber (x : Float) : BinaryNumber := BinaryFormat.double.decode x.toBits.toNat

def singleText (x : Float32) : Text :=
  BinaryFormat.single.textWith ['0'] Decimal.positional (singleNumber x)

def doubleText (x : Float) : Text :=
  BinaryFormat.double.textWith ['0'] Decimal.positional (doubleNumber x)

/-- A number of a format in JSON, which has only finite ones; the others are `null`. -/
def JsonNumberStyle.text (s : JsonNumberStyle) (f : BinaryFormat) : BinaryNumber → Text
  | .finite negative m q => f.textWith "0.0".toList s.write (.finite negative m q)
  | _ => "null".toList

def singleJsonText (x : Float32) : Text :=
  JsonNumberStyle.single.text .single (singleNumber x)

def doubleJsonText (x : Float) : Text :=
  JsonNumberStyle.double.text .double (doubleNumber x)

/-- A nonnegative quotient rounded to a number of places, a tie going to the even digit. -/
def fixedQuotientText (places num den : Nat) : Text :=
  let digits := natText (roundQuotient (num * Nat.pow 10 places) den)
  let digits := List.replicate (places + 1 - digits.length) '0' ++ digits
  if places = 0 then digits
  else digits.take (digits.length - places) ++ '.' :: digits.drop (digits.length - places)

/-- A single rounded to a number of places. -/
def singleFixedText (places : Nat) (x : Float32) : Text :=
  match singleNumber x with
  | .finite negative m q =>
    let (num, den) := scaleQuotient 2 m 1 q
    let body := fixedQuotientText places num den
    if negative then '-' :: body else body
  | x => BinaryFormat.single.textWith ['0'] Decimal.positional x

end ContentSearch
