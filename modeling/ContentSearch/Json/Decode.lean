import ContentSearch.Json.Reader

/-!
Decoding documents into the types of the library. A record is an object, whose unknown members are
passed over and whose known members occur at most once, or an array of the fields in their order.
-/

namespace ContentSearch.JsonTree

def text? : JsonTree → Option Text
  | .string s => s
  | _ => none

def flag? : JsonTree → Option Bool
  | .bool b => some b
  | _ => none

/-- An integer, which cannot be written with a point or an exponent. -/
def integer? : JsonTree → Option Int
  | .number (some (.integer n)) => some n
  | _ => none

def natural? (t : JsonTree) : Option Nat :=
  t.integer?.bind fun n => if 0 ≤ n then some n.toNat else none

/-- An integer that fits in 64 bits with a sign. -/
def signed? (t : JsonTree) : Option Int :=
  t.integer?.bind fun n => if n < signedBound then some n else none

def doubleOfInt (n : Int) : Float :=
  let f := (UInt64.ofNat n.natAbs).toFloat
  if n < 0 then -f else f

def singleOfInt (n : Int) : Float32 :=
  let f := (UInt64.ofNat n.natAbs).toFloat32
  if n < 0 then -f else f

def double? : JsonTree → Option Float
  | .number (some (.integer n)) => some (doubleOfInt n)
  | .number (some (.double x)) => some x
  | .number (some (.single x)) => some x.toFloat
  | _ => none

/-- A number in single precision; one that is written as a floating point number is rounded twice,
first to double precision. -/
def single? : JsonTree → Option Float32
  | .number (some (.integer n)) => some (singleOfInt n)
  | .number (some (.double x)) => some x.toFloat32
  | .number (some (.single x)) => some x
  | _ => none

def list? {α : Type} (f : JsonTree → Option α) : JsonTree → Option (List α)
  | .array items => items.mapM f
  | _ => none

def nullable? {α : Type} (f : JsonTree → Option α) : JsonTree → Option (Option α)
  | .null => some none
  | t => (f t).map some

/-- An object as a dictionary; of several members with one key the last counts. -/
def dictionary? {α : Type} (f : JsonTree → Option α) : JsonTree → Option (Dictionary α)
  | .object members => do
    let entries ← members.mapM fun (k, t) => do return (← k, ← f t)
    return .ofList entries
  | _ => none

/-- The members of a record with these field names, in the order of the names. -/
def fields? (names : List Text) : JsonTree → Option (List (Option JsonTree))
  | .array items =>
    if items.length ≤ names.length then
      some (items.map some ++ List.replicate (names.length - items.length) none)
    else none
  | .object members => do
    let members ← members.mapM fun (k, t) => do return (← k, t)
    names.mapM fun name =>
      match members.filter fun m => m.1 = name with
      | [] => some none
      | [m] => some (some m.2)
      | _ => none
  | _ => none

/-- A field that must be present. -/
def required? {α : Type} (f : JsonTree → Option α) (t : Option JsonTree) : Option α := t.bind f

/-- A field that may be left out. -/
def optional? {α : Type} (f : JsonTree → Option α) (default : α) : Option JsonTree → Option α
  | none => some default
  | some t => f t

end ContentSearch.JsonTree
