import ContentSearch.Dictionary
import ContentSearch.Json.Number

/-!
Reading JSON documents. `JsonTree.read?` reads a whole text as a document as it is written;
`Json.read?` also demands that every part of it has a value and that arrays and objects nest at
most 127 deep, and lets the last of several members with one key count.
-/

namespace ContentSearch

namespace JsonTree

def skipBlanks (t : Text) : Text :=
  t.dropWhile fun c => c = ' ' || c = '\n' || c = '\t' || c = '\r'

/-! ## strings -/

/-- A part of a string: a character, or the code unit of a `\u` escape. -/
inductive StringPart where
  | char (c : Char)
  | unit (n : Nat)

def hexDigit? (c : Char) : Option Nat :=
  if c.isDigit then some (c.toNat - 48)
  else if 'a' ≤ c && c ≤ 'f' then some (c.toNat - 87)
  else if 'A' ≤ c && c ≤ 'F' then some (c.toNat - 55)
  else none

def hexUnit? (a b c d : Char) : Option Nat := do
  return (((← hexDigit? a) * 16 + (← hexDigit? b)) * 16 + (← hexDigit? c)) * 16 + (← hexDigit? d)

def escaped? : Char → Option Char
  | '"' => some '"'
  | '\\' => some '\\'
  | '/' => some '/'
  | 'b' => some '\x08'
  | 'f' => some '\x0c'
  | 'n' => some '\n'
  | 'r' => some '\r'
  | 't' => some '\t'
  | _ => none

/-- The parts of a string up to its closing quote, and the text after it. -/
def stringParts? : Text → Option (List StringPart × Text)
  | [] => none
  | '"' :: t => some ([], t)
  | '\\' :: 'u' :: a :: b :: c :: d :: t => do
    let n ← hexUnit? a b c d
    let (parts, rest) ← stringParts? t
    return (.unit n :: parts, rest)
  | '\\' :: e :: t => do
    let c ← escaped? e
    let (parts, rest) ← stringParts? t
    return (.char c :: parts, rest)
  | c :: t =>
    if c.toNat < 0x20 then none
    else do
      let (parts, rest) ← stringParts? t
      return (.char c :: parts, rest)

/-- The text of the parts of a string; none if a surrogate lacks its other half. -/
def joinParts? : List StringPart → Option Text
  | [] => some []
  | .char c :: r => (joinParts? r).map (c :: ·)
  | .unit n :: r =>
    if n < 0xD800 || 0xE000 ≤ n then (joinParts? r).map (Char.ofNat n :: ·)
    else if n < 0xDC00 then
      match r with
      | .unit m :: r =>
        if 0xDC00 ≤ m && m < 0xE000 then
          (joinParts? r).map (Char.ofNat (0x10000 + (n - 0xD800) * 0x400 + (m - 0xDC00)) :: ·)
        else none
      | _ => none
    else none

/-- A string from after its opening quote, and the text after it. -/
def readString? (t : Text) : Option (Option Text × Text) :=
  (stringParts? t).map fun (parts, rest) => (joinParts? parts, rest)

/-! ## numbers -/

def digits? (t : Text) : Option (Text × Text) :=
  let (ds, rest) := spanDigits t
  if ds.isEmpty then none else some (ds, rest)

/-- The digits of an integer part: a zero, or digits that do not start with one. -/
def whole? : Text → Option (Text × Text)
  | '0' :: t => if t.head?.any Char.isDigit then none else some (['0'], t)
  | t => digits? t

def fraction? : Text → Option (Option Text × Text)
  | '.' :: t => (digits? t).map fun (ds, rest) => (some ds, rest)
  | t => some (none, t)

/-- The exponent after an `e`, if there is one: whether it is negative, and its digits. -/
def exponent? : Text → Option (Option (Bool × Text) × Text)
  | [] => some (none, [])
  | e :: t =>
    if e = 'e' || e = 'E' then
      match t with
      | '-' :: t => (digits? t).map fun (ds, rest) => (some (true, ds), rest)
      | '+' :: t => (digits? t).map fun (ds, rest) => (some (false, ds), rest)
      | t => (digits? t).map fun (ds, rest) => (some (false, ds), rest)
    else some (none, e :: t)

def readNumber? (t : Text) : Option (JsonNumber.Literal × Text) := do
  let (negative, t) := match t with
    | '-' :: t => (true, t)
    | t => (false, t)
  let (whole, t) ← whole? t
  let (fraction, t) ← fraction? t
  let (exponent, t) ← exponent? t
  return (⟨negative, whole, fraction, exponent⟩, t)

/-! ## documents -/

mutual

/-- A value and the text after it. The first argument bounds the number of steps. -/
def readValue? : Nat → Text → Option (JsonTree × Text)
  | 0, _ => none
  | fuel + 1, t =>
    match skipBlanks t with
    | 'n' :: 'u' :: 'l' :: 'l' :: t => some (.null, t)
    | 't' :: 'r' :: 'u' :: 'e' :: t => some (.bool true, t)
    | 'f' :: 'a' :: 'l' :: 's' :: 'e' :: t => some (.bool false, t)
    | '"' :: t => (readString? t).map fun (s, t) => (.string s, t)
    | '[' :: t =>
      match skipBlanks t with
      | ']' :: t => some (.array [], t)
      | t => (readItems? fuel t).map fun (items, t) => (.array items, t)
    | '{' :: t =>
      match skipBlanks t with
      | '}' :: t => some (.object [], t)
      | t => (readMembers? fuel t).map fun (members, t) => (.object members, t)
    | t => (readNumber? t).map fun (l, t) => (.number l.value?, t)

/-- The items of an array up to its closing bracket, and the text after it. -/
def readItems? : Nat → Text → Option (List JsonTree × Text)
  | 0, _ => none
  | fuel + 1, t => do
    let (item, t) ← readValue? fuel t
    match skipBlanks t with
    | ']' :: t => return ([item], t)
    | ',' :: t =>
      let (items, t) ← readItems? fuel t
      return (item :: items, t)
    | _ => none

/-- The members of an object up to its closing brace, and the text after it. -/
def readMembers? : Nat → Text → Option (List (Option Text × JsonTree) × Text)
  | 0, _ => none
  | fuel + 1, t =>
    match skipBlanks t with
    | '"' :: t => do
      let (key, t) ← readString? t
      match skipBlanks t with
      | ':' :: t =>
        let (value, t) ← readValue? fuel t
        match skipBlanks t with
        | '}' :: t => return ([(key, value)], t)
        | ',' :: t =>
          let (members, t) ← readMembers? fuel t
          return ((key, value) :: members, t)
        | _ => none
      | _ => none
    | _ => none

end

/-- The document that a whole text is. Every step but the first of a list reads a character, so
that twice the length of the text bounds their number. -/
def read? (t : Text) : Option JsonTree := do
  let (tree, rest) ← readValue? (2 * t.length + 2) t
  if (skipBlanks rest).isEmpty then some tree else none

/-! ## values -/

/-- Members in ascending order of their keys; of those with one key the last counts. -/
def orderMembers {α : Type} (l : List (Text × α)) : List (Text × α) :=
  l.foldl (fun acc e => Dictionary.alterEntries e.1 (fun _ => e.2) acc) []

mutual

/-- The value of a document in which arrays and objects nest at most `depth` deep. -/
def toJson? : Nat → JsonTree → Option Json
  | _, .null => some .null
  | _, .bool b => some (.bool b)
  | _, .number x => x.map .number
  | _, .string s => s.map .string
  | 0, .array _ => none
  | 0, .object _ => none
  | depth + 1, .array items => (itemValues? depth items).map .array
  | depth + 1, .object members =>
    (memberValues? depth members).map fun l => .object (orderMembers l)

def itemValues? : Nat → List JsonTree → Option (List Json)
  | _, [] => some []
  | depth, t :: r => do return (← toJson? depth t) :: (← itemValues? depth r)

def memberValues? : Nat → List (Option Text × JsonTree) → Option (List (Text × Json))
  | _, [] => some []
  | depth, (k, t) :: r => do return (← k, ← toJson? depth t) :: (← memberValues? depth r)

end

def maxDepth : Nat := 127

end JsonTree

def Json.read? (t : Text) : Option Json := (JsonTree.read? t).bind (·.toJson? JsonTree.maxDepth)

end ContentSearch
