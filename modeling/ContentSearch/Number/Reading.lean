import ContentSearch.Text.Basic
import ContentSearch.Number.Binary
import ContentSearch.Number.Word

/-!
Reading a number of a binary format from decimal text: an optional sign, then digits with an
optional point and exponent, or the name of an infinity or of a value that is no number, in any
letter case. The value is the number of the format nearest to the decimal.
-/

namespace ContentSearch

def spanDigits (t : Text) : Text × Text := t.span Char.isDigit

def digitsValue (ds : Text) : Nat := ds.foldl (fun n c => 10 * n + (c.toNat - 48)) 0

/-- The number of a format nearest to `digits · 10^exponent`. The powers of ten beyond the range of
every format are not computed. -/
def BinaryFormat.ofDecimal (f : BinaryFormat) (negative : Bool) (digits : Nat) (exponent : Int) :
    BinaryNumber :=
  let magnitude := exponent + (Nat.toDigits 10 digits).length
  if digits = 0 || magnitude < -400 then .finite negative 0 f.minExponent
  else if 400 < magnitude then .infinite negative
  else
    let (num, den) := scaleQuotient 10 digits 1 exponent
    f.nearest negative num den

/-- Digits with an optional point and exponent: the digits without the point, and the exponent of
the last one. -/
def readDecimal? (t : Text) : Option (Nat × Int) :=
  let (whole, t) := spanDigits t
  let (fraction, t) := match t with
    | '.' :: t => spanDigits t
    | t => ([], t)
  if whole.isEmpty && fraction.isEmpty then none
  else
    let digits := digitsValue (whole ++ fraction)
    let scale : Int := -fraction.length
    match t with
    | [] => some (digits, scale)
    | e :: t =>
      if e = 'e' || e = 'E' then
        let (negative, t) := match t with
          | '-' :: t => (true, t)
          | '+' :: t => (false, t)
          | t => (false, t)
        let (power, t) := spanDigits t
        if power.isEmpty || !t.isEmpty then none
        else
          let power : Int := digitsValue power
          some (digits, if negative then scale - power else scale + power)
      else none

/-- The number of a format that a text denotes. -/
def BinaryFormat.read? (f : BinaryFormat) (t : Text) : Option BinaryNumber :=
  let (negative, t) := match t with
    | '-' :: t => (true, t)
    | '+' :: t => (false, t)
    | t => (false, t)
  let name := t.map Char.toLower
  if name = "inf".toList || name = "infinity".toList then some (.infinite negative)
  else if name = "nan".toList then some .notANumber
  else (readDecimal? t).map fun (digits, exponent) => f.ofDecimal negative digits exponent

def readSingle? (t : Text) : Option Float32 :=
  (BinaryFormat.single.read? t).map fun x =>
    Float32.ofBits (UInt32.ofNat (BinaryFormat.single.encode x))

/-- The size that decimal digits denote, with an optional plus sign before them. -/
def readSize? (t : Text) : Option Nat :=
  let digits := match t with
    | '+' :: t => t
    | t => t
  if digits.isEmpty || !digits.all Char.isDigit then none
  else
    let n := digitsValue digits
    if n < wordSize then some n else none

def doublePowerOfTen (n : Nat) : Float :=
  Float.ofBits (UInt64.ofNat (BinaryFormat.double.encode (BinaryFormat.double.ofDecimal false 1 n)))

end ContentSearch
