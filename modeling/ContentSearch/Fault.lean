import ContentSearch.Number.Word
import ContentSearch.Text.Basic

/-!
What would make an answer impossible: a byte range that does not cut a text between characters, a
position past the end of a list, an offset that leaves the 64-bit words. Operations that could meet
one of these return `Except Fault`.
-/

namespace ContentSearch

/-- The reason why an operation has no answer. -/
inductive Fault where
  | badRange (r : Text.ByteRange)
  | badPosition (n : Nat)
  | overflow
  deriving Repr, DecidableEq

/-- The bytes of a range of a text. -/
def Text.slice (t : Text) (r : Text.ByteRange) : Except Fault Text :=
  match Text.slice? t r with
  | some s => .ok s
  | none => .error (.badRange r)

def itemAt {α : Type} (l : List α) (n : Nat) : Except Fault α :=
  match l[n]? with
  | some a => .ok a
  | none => .error (.badPosition n)

def itemsBetween {α : Type} (l : List α) (start stop : Nat) : Except Fault (List α) :=
  if start ≤ stop && stop ≤ l.length then .ok ((l.drop start).take (stop - start))
  else .error (.badRange ⟨start, stop⟩)

def addSizes (a b : Nat) : Except Fault Nat :=
  if a + b < wordSize then .ok (a + b) else .error .overflow

def subSizes (a b : Nat) : Except Fault Nat :=
  if b ≤ a then .ok (a - b) else .error .overflow

end ContentSearch
