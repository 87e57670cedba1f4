import ContentSearch.Text.Basic

/-!
Names of files for arbitrary keys. ASCII letters, ASCII digits, `-` and `_` stand for themselves,
and every other byte of the key is written as `%` with two hexadecimal digits, so that different
keys have different names and no name leads out of its folder.
-/

namespace ContentSearch.FileName

/-- Whether a byte stands for itself. -/
def isPlain (b : UInt8) : Bool :=
  let c := Char.ofUInt8 b
  c.isAlphanum || c = '-' || c = '_'

def hexDigit (n : Nat) : Char := (Nat.digitChar n).toUpper

def escape (b : UInt8) : Text :=
  if isPlain b then [Char.ofUInt8 b] else ['%', hexDigit (b.toNat / 16), hexDigit (b.toNat % 16)]

/-- The part of the name that depends on the key. -/
def stem (key : Text) : Text := (key.flatMap String.utf8EncodeChar).flatMap escape

def ofKey (key : Text) : Text := stem key ++ ".json".toList

/-- The name of the file in which the text under a key is prepared. -/
def temporary (key : Text) : Text := '.' :: stem key ++ ".json.tmp".toList

end ContentSearch.FileName
