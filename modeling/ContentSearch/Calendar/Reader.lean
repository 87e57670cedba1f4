import ContentSearch.Calendar.Date
import ContentSearch.Number.Reading
import ContentSearch.Text.Whitespace

/-!
Reading dates and instants. Both are read leniently: parts may have fewer digits, white space may
stand around the separators, and the offset from universal time may be written with or without a
colon. A year has up to four digits, or any number of them after a sign.
-/

namespace ContentSearch

namespace Calendar

/-- One or more digits, `width` at most, after white space. -/
def number? (width : Nat) (t : Text) : Option (Nat × Text) :=
  let t := Text.trimStart t
  let digits := (t.take width).takeWhile Char.isDigit
  if digits.isEmpty then none else some (digitsValue digits, t.drop digits.length)

/-- A year, after white space. -/
def year? (t : Text) : Option (Int × Text) :=
  match Text.trimStart t with
  | '-' :: t => signed? t fun n => -n
  | '+' :: t => signed? t fun n => n
  | t => (number? 4 t).map fun (n, t) => (n, t)
where
  /-- The digits after a sign, which may not be parted from it. -/
  signed? (t : Text) (f : Int → Int) : Option (Int × Text) :=
    let (digits, t) := spanDigits t
    if digits.isEmpty then none else some (f (digitsValue digits), t)

/-- A separator, after white space. -/
def separator? (c : Char) (t : Text) : Option Text :=
  match Text.trimStart t with
  | d :: t => if d = c then some t else none
  | [] => none

/-- A year, a month and a day with dashes between them. -/
def date? (t : Text) : Option (Date × Text) := do
  let (y, t) ← year? t
  let t ← separator? '-' t
  let (m, t) ← number? 2 t
  let t ← separator? '-' t
  let (d, t) ← number? 2 t
  return (← Date.of? y m d, t)

/-- The nanoseconds of a fraction of a second: nine digits count, and more are passed over. -/
def fraction? : Text → Option (Nat × Text)
  | '.' :: t =>
    let (digits, t) := spanDigits t
    if digits.isEmpty then none
    else
      let kept := digits.take 9
      some (digitsValue kept * Nat.pow 10 (9 - kept.length), t)
  | t => some (0, t)

/-- A second of the day and nanoseconds: hours, minutes and seconds with colons between them, and
an optional fraction. A 60th second is the 59th with a second more of nanoseconds. -/
def time? (t : Text) : Option ((Nat × Nat) × Text) := do
  let (h, t) ← number? 2 t
  let t ← separator? ':' t
  let (m, t) ← number? 2 t
  let t ← separator? ':' t
  let (s, t) ← number? 2 t
  let (nano, t) ← fraction? t
  if 23 < h || 59 < m || 60 < s then none
  else if s = 60 then return ((h * 3600 + m * 60 + 59, nano + 1000000000), t)
  else return ((h * 3600 + m * 60 + s, nano), t)

/-- Hours and minutes of an offset, in seconds, with colons and white space between them. -/
def offsetSeconds? : Text → Option (Int × Text)
  | h₁ :: h₂ :: t =>
    match t.dropWhile fun c => c = ':' || Text.isBlank c with
    | m₁ :: m₂ :: t =>
      if [h₁, h₂, m₁, m₂].all Char.isDigit && m₁ < '6' then
        some (digitsValue [h₁, h₂] * 3600 + digitsValue [m₁, m₂] * 60, t)
      else none
    | _ => none
  | _ => none

/-- The offset from universal time, in seconds: `UTC` or `Z` in any case, or a signed offset. -/
def offset? (t : Text) : Option (Int × Text) :=
  if (t.take 3).map Char.toLower = "utc".toList then some (0, t.drop 3)
  else
    match t with
    | 'Z' :: t | 'z' :: t => some (0, t)
    | '+' :: t => offsetSeconds? t
    | '-' :: t | '−' :: t => (offsetSeconds? t).map fun (s, t) => (-s, t)
    | _ => none

end Calendar

def Date.read? (t : Text) : Option Date := do
  let (date, t) ← Calendar.date? t
  if (Text.trimStart t).isEmpty then some date else none

/-- The instant that a text denotes: a date, a `T` or a space, a time and an offset. -/
def Instant.read? (t : Text) : Option Instant := do
  let (date, t) ← Calendar.date? t
  let t ← match t with
    | 't' :: t | 'T' :: t | ' ' :: t => some t
    | _ => none
  let ((second, nano), t) ← Calendar.time? t
  let (offset, t) ← Calendar.offset? (Text.trimStart t)
  if !(Text.trimStart t).isEmpty || 86400 ≤ offset.natAbs then none
  else
    let seconds := date.toDays * 86400 + second - offset
    let i : Instant := ⟨seconds / 86400, (seconds % 86400).toNat, nano⟩
    if i.inRange then some i else none

end ContentSearch
