import ContentSearch.Text.Basic

/-!
JSON values, and documents as they are written. A written document may hold numbers and strings
that are well formed but denote nothing, and may repeat the keys of an object; a value may not.
-/

namespace ContentSearch

/-- A number: an integer of at most 64 bits, or a floating point number. Single precision arises
only in documents that the program writes. -/
inductive JsonNumber where
  | integer (n : Int)
  | double (x : Float)
  | single (x : Float32)

/-- A JSON value. The members of an object that was read are in ascending order of their keys. -/
inductive Json where
  | null
  | bool (b : Bool)
  | number (x : JsonNumber)
  | string (s : Text)
  | array (items : List Json)
  | object (members : List (Text × Json))
  deriving Inhabited

/-- A document as it is written. A number beyond the range of double precision has no value, and
neither has a string with half of a surrogate pair. -/
inductive JsonTree where
  | null
  | bool (b : Bool)
  | number (x : Option JsonNumber)
  | string (s : Option Text)
  | array (items : List JsonTree)
  | object (members : List (Option Text × JsonTree))
  deriving Inhabited

namespace Json

def int (n : Int) : Json := .number (.integer n)

def nat (n : Nat) : Json := .int n

def strings (l : List Text) : Json := .array (l.map .string)

def ofOption (o : Option Json) : Json := o.getD .null

mutual

def toTree : Json → JsonTree
  | .null => .null
  | .bool b => .bool b
  | .number x => .number (some x)
  | .string s => .string (some s)
  | .array items => .array (itemTrees items)
  | .object members => .object (memberTrees members)

def itemTrees : List Json → List JsonTree
  | [] => []
  | j :: r => toTree j :: itemTrees r

def memberTrees : List (Text × Json) → List (Option Text × JsonTree)
  | [] => []
  | (k, j) :: r => (some k, toTree j) :: memberTrees r

end

end Json
end ContentSearch
