import ContentSearch.Query.Parser

/-!
Writing queries in the syntax in which they are typed.
-/

namespace ContentSearch.Query

/-- The phrases in quotes, the terms, the exclusions and the filters of a query. -/
def parts (q : Query) : List Text :=
  q.phrases.map (fun t => '"' :: t ++ ['"']) ++ q.terms ++ q.exclusions.map ('-' :: ·) ++
    q.filters.toList.flatMap fun (name, values) => values.map fun v => name ++ ':' :: v

/-- The query as it could be typed. The phrases come first, so that a lone quote in a later part
cannot pair up with one of theirs. -/
def render (q : Query) : Text := Text.joinWith [' '] q.parts

end ContentSearch.Query
