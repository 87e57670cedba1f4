import ContentSearch.Json.Basic
import ContentSearch.Number.Format

/-!
Writing JSON: `Json.compact` on one line, `Json.pretty` with two spaces of indentation.
-/

namespace ContentSearch

namespace Json

def hexByte (n : Nat) : Text := [Nat.digitChar (n / 16), Nat.digitChar (n % 16)]

def escape (c : Char) : Text :=
  if c = '"' then ['\\', '"']
  else if c = '\\' then ['\\', '\\']
  else if c = '\n' then ['\\', 'n']
  else if c = '\r' then ['\\', 'r']
  else if c = '\t' then ['\\', 't']
  else if c = '\x08' then ['\\', 'b']
  else if c = '\x0c' then ['\\', 'f']
  else if c.toNat < 0x20 then "\\u00".toList ++ hexByte c.toNat
  else [c]

def quote (s : Text) : Text := '"' :: s.flatMap escape ++ ['"']

def numberText : JsonNumber → Text
  | .integer n => intText n
  | .double x => doubleJsonText x
  | .single x => singleJsonText x

mutual

/-- A value on one line without blanks. -/
def compact : Json → Text
  | .null => "null".toList
  | .bool b => (if b then "true" else "false").toList
  | .number x => numberText x
  | .string s => quote s
  | .array items => '[' :: compactItems items ++ [']']
  | .object members => '{' :: compactMembers members ++ ['}']

def compactItems : List Json → Text
  | [] => []
  | [j] => compact j
  | j :: r => compact j ++ ',' :: compactItems r

def compactMembers : List (Text × Json) → Text
  | [] => []
  | [(k, j)] => quote k ++ ':' :: compact j
  | (k, j) :: r => quote k ++ ':' :: compact j ++ ',' :: compactMembers r

end

def newline (level : Nat) : Text := '\n' :: List.replicate (2 * level) ' '

mutual

/-- A value with one item or member a line, indented below `level`. -/
def prettyAt (level : Nat) : Json → Text
  | .array [] => "[]".toList
  | .array items => '[' :: prettyItems (level + 1) items ++ newline level ++ [']']
  | .object [] => ['{', '}']
  | .object members => '{' :: prettyMembers (level + 1) members ++ newline level ++ ['}']
  | j => compact j

def prettyItems (level : Nat) : List Json → Text
  | [] => []
  | [j] => newline level ++ prettyAt level j
  | j :: r => newline level ++ prettyAt level j ++ ',' :: prettyItems level r

def prettyMembers (level : Nat) : List (Text × Json) → Text
  | [] => []
  | [(k, j)] => newline level ++ quote k ++ ": ".toList ++ prettyAt level j
  | (k, j) :: r =>
    newline level ++ quote k ++ ": ".toList ++ prettyAt level j ++ ',' :: prettyMembers level r

end

def pretty (j : Json) : Text := prettyAt 0 j

end Json
end ContentSearch
