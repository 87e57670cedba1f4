import ContentSearch.Query.Basic
import ContentSearch.Text.Case
import ContentSearch.Text.Whitespace

/-!
Reading queries as they are typed. A text between two double quotes is a phrase; the rest is cut
into tokens at white space. A token `-x` excludes `x`, a token `name:value` is a filter, and any
other token is a term. Reading never fails: a quote without a partner is an ordinary character.
-/

namespace ContentSearch.Query

/-! ## quotation -/

/-- Splits the pieces between the double quotes of a text into what stands outside quotation and
the quoted texts. Each quotation leaves a space behind; a last quote without a partner stays. -/
def unquotePieces : List Text → Text × List Text
  | [] => ([], [])
  | [outside] => (outside, [])
  | [outside, rest] => (outside ++ '"' :: rest, [])
  | outside :: quoted :: rest =>
    let (t, quotations) := unquotePieces rest
    (outside ++ ' ' :: t, quoted :: quotations)

/-- What stands outside quotation in a text, and the quoted texts in order. -/
def unquote (t : Text) : Text × List Text := unquotePieces (Text.splitOn (· == '"') t)

/-! ## tokens -/

/-- What a token asks for, in lowercase. -/
inductive Token where
  | term (t : Text)
  | exclusion (t : Text)
  | filter (name value : Text)
  deriving DecidableEq, Repr

/-- The filter that a token with text on both sides of its first colon is, otherwise a term. -/
def Token.ofPlain (t : Text) : Token :=
  match Text.splitFirst? ':' t with
  | some (name, value) =>
    if name.isEmpty || value.isEmpty then .term (Text.lowercase t)
    else .filter (Text.lowercase name) (Text.lowercase value)
  | none => .term (Text.lowercase t)

/-- What a token asks for. A dash before something excludes it, even if that is a filter. -/
def Token.ofText : Text → Token
  | '-' :: c :: t => .exclusion (Text.lowercase (c :: t))
  | t => .ofPlain t

/-! ## queries -/

/-- The list with a text at its end, unless it holds the text already. -/
def pushUnique (l : List Text) (t : Text) : List Text := if t ∈ l then l else l ++ [t]

def addToken (q : Query) : Token → Query
  | .term t => { q with terms := pushUnique q.terms t }
  | .exclusion t => { q with exclusions := pushUnique q.exclusions t }
  | .filter name value =>
    { q with filters := q.filters.alter name fun values => pushUnique (values.getD []) value }

/-- The query that also asks for a quoted text, unless that is blank. -/
def addQuotation (q : Query) (t : Text) : Query :=
  let phrase := Text.lowercase (Text.trim t)
  if phrase.isEmpty then q else { q with phrases := pushUnique q.phrases phrase }

/-- The query with `filterOnly` as its terms and phrases determine it. -/
def refresh (q : Query) : Query :=
  { q with filterOnly := q.terms.isEmpty && q.phrases.isEmpty }

def parse (t : Text) : Query :=
  let (plain, quotations) := unquote t
  let q := quotations.foldl addQuotation empty
  (((Text.words plain).map Token.ofText).foldl addToken q).refresh

end ContentSearch.Query
