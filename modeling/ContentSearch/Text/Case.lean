import ContentSearch.Text.Basic
import ContentSearch.Text.Ranges
import ContentSearch.Text.CaseTable

/-!
Letter case. `lowercase` is the full lowercase form of a text, in which a capital sigma that ends
a word becomes a final sigma; `lowercaseChar` is the same mapping for a character on its own;
`fold` identifies the characters that differ in case alone.
-/

namespace ContentSearch.Text

/-- The code point that the rules, in ascending order, assign to a code point, which is itself where
none applies. -/
def applyRules (n : Nat) : List CaseRule → Nat
  | [] => n
  | r :: rest =>
    if n < r.first then n
    else if n ≤ r.last ∧ (n - r.first) % r.step = 0 then r.image + (n - r.first)
    else applyRules n rest

/-- The lowercase form of a character: one character, save for the capital `İ`, whose dot stays as
a combining mark. -/
def lowercaseChar (c : Char) : Text :=
  if c = 'İ' then ['i', '\u0307'] else [Char.ofNat (applyRules c.toNat lowercaseRules)]

def isCased (c : Char) : Bool := inRanges c.toNat casedRanges

/-- Whether a character is passed over in the search for the letters around a sigma. -/
def isCaseIgnorable (c : Char) : Bool := inRanges c.toNat caseIgnorableRanges

/-- Whether the first character that is not passed over is a cased letter. -/
def startsCased (t : Text) : Bool :=
  match t.dropWhile isCaseIgnorable with
  | [] => false
  | c :: _ => isCased c

/-- The lowercase form of a text that follows `before`, which is given backwards. A capital sigma
is final when a cased letter comes before it and none comes after it. -/
def lowercaseAfter (before : Text) : Text → Text
  | [] => []
  | c :: t =>
    (if c = 'Σ' then (if startsCased before && !startsCased t then ['ς'] else ['σ'])
     else lowercaseChar c) ++ lowercaseAfter (c :: before) t

def lowercase (t : Text) : Text := lowercaseAfter [] t

/-- The representative of the characters that simple case folding identifies with `c`. -/
def fold (c : Char) : Char :=
  if c = 'İ' then c
  else Char.ofNat (applyRules (applyRules c.toNat lowercaseRules) foldingRules)

/-- The lowercase form of the ASCII capitals; every other character stays. -/
def asciiLowercase (t : Text) : Text := t.map Char.toLower

end ContentSearch.Text
