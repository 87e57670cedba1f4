import ContentSearch.Highlight.Pattern

/-!
The compiler that the program uses. It builds an automaton, and gives up when this would take more
than ten mebibytes. The size is reckoned from the characters: 32 bytes for the state of each byte,
and 48 for another state and two transitions where a letter may stand in either case.
-/

namespace ContentSearch

namespace Pattern

def sizeLimit : Nat := 10 * 1024 * 1024

/-- What the states of a character take. -/
def stateSize (c : Char) : Nat := 32 * c.utf8Size + if Text.isCased c then 48 else 0

/-- What the automaton of some texts takes. -/
def automatonSize (terms : List Text) : Nat := terms.flatten.foldr (fun c n => stateSize c + n) 0

end Pattern

instance : PatternCompiler := ⟨fun terms => decide (Pattern.automatonSize terms ≤ Pattern.sizeLimit)⟩

end ContentSearch
