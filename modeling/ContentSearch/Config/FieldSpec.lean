import ContentSearch.Config.Basic
import ContentSearch.Number.Reading

/-!
Scored fields as they are given on a command line: a name, or a name, a colon and a weight.
-/

namespace ContentSearch.FieldSpec

/-- What is wrong with the specification of a field. -/
inductive Error where
  | badNumber
  | noName
  | badWeight
  deriving Repr, DecidableEq

def Error.message (spec : Text) : Error → Text
  | .badNumber => "invalid weight in field '".toList ++ spec ++ ['\'']
  | .noName => "missing field name in '".toList ++ spec ++ ['\'']
  | .badWeight => "field weight must be positive in '".toList ++ spec ++ ['\'']

/-- The field that a specification denotes. The weight follows the last colon, and is 1 where there
is none. -/
def read (spec : Text) : Except Error (ScoredField Float32) := do
  let (name, weight) : Text × Float32 ← match Text.splitLast? ':' spec with
    | some (name, number) =>
      match readSingle? (Text.trim number) with
      | some weight => pure (Text.trim name, weight)
      | none => throw .badNumber
    | none => pure (Text.trim spec, 1)
  if name.isEmpty then throw .noName
  if !weight.isFinite || decide (weight ≤ 0) then throw .badWeight
  let field : ScoredField Float32 := .ofName name
  return { field with weight }

end ContentSearch.FieldSpec
