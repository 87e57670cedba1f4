import ContentSearch.Json.Printer
import ContentSearch.Json.Reader
import Mathlib.Data.List.TakeDrop

/-!
# Integers in JSON

An integer of at most 64 bits is read back from its decimal digits, whatever follows that could not belong to a number
(`readNumber?_intText`); and a number that is read is such an integer or a floating point number
(`inRange_of_value?`).
-/

namespace ContentSearch

/-! ## digits -/

theorem natText_ne_nil (n : Nat) : natText n ≠ [] := Nat.toDigits_ne_nil

theorem isDigit_of_mem_natText {n : Nat} {c : Char} (h : c ∈ natText n) : c.isDigit = true :=
  Nat.isDigit_of_mem_toDigits (by decide) (by decide) h

theorem digitsValue_natText (n : Nat) : digitsValue (natText n) = n := Nat.ofDigitChars_ten_toDigits

/-- Only zero is written with a zero in front. -/
theorem natText_eq_of_head? {n : Nat} (h : (natText n).head? = some '0') : natText n = ['0'] := by
  induction n using Nat.strongRecOn with
  | ind n ih =>
    have hif : natText n = if n < 10 then [Nat.digitChar n] else natText (n / 10) ++ [Nat.digitChar (n % 10)] :=
      Nat.toDigits_eq_if (by decide)
    by_cases hn : n < 10
    · rw [hif, if_pos hn] at h ⊢
      simpa using h
    · obtain ⟨c, ds, hcons⟩ := List.exists_cons_of_ne_nil (natText_ne_nil (n / 10))
      have hhead : (natText (n / 10)).head? = some '0' := by
        rw [hif, if_neg hn, hcons] at h
        rw [hcons]
        exact h
      have hzero := digitsValue_natText (n / 10)
      rw [ih (n / 10) (by omega) hhead] at hzero
      have hpos : n / 10 ≠ 0 := by omega
      exact absurd hzero.symm hpos

/-- What cannot go on with a number that has been read. -/
def EndsNumber (t : Text) : Prop := ∀ c, t.head? = some c → c = ',' ∨ c = ']' ∨ c = '}'

theorem spanDigits_append {ds t : Text} (hds : ∀ c ∈ ds, c.isDigit = true) (ht : EndsNumber t) :
    spanDigits (ds ++ t) = (ds, t) := by
  have hrest : t.takeWhile Char.isDigit = [] ∧ t.dropWhile Char.isDigit = t := by
    cases t with
    | nil => exact ⟨rfl, rfl⟩
    | cons c t =>
      have hc : ¬ c.isDigit = true := by
        rcases ht c rfl with rfl | rfl | rfl <;> decide
      exact ⟨List.takeWhile_cons_of_neg hc, List.dropWhile_cons_of_neg hc⟩
  rw [spanDigits, List.span_eq_takeWhile_dropWhile, List.takeWhile_append_of_pos hds, List.dropWhile_append_of_pos hds,
    hrest.1, hrest.2, List.append_nil]

/-! ## reading -/

namespace JsonTree

variable {t : Text}

theorem digits?_natText (n : Nat) (ht : EndsNumber t) : digits? (natText n ++ t) = some (natText n, t) := by
  rw [digits?, spanDigits_append (fun _ h => isDigit_of_mem_natText h) ht]
  simp [natText_ne_nil]

theorem whole?_natText (n : Nat) (ht : EndsNumber t) : whole? (natText n ++ t) = some (natText n, t) := by
  obtain ⟨c, ds, hcons⟩ := List.exists_cons_of_ne_nil (natText_ne_nil n)
  by_cases hc : c = '0'
  · have hzero : natText n = ['0'] := natText_eq_of_head? (by rw [hcons, hc]; rfl)
    rw [hzero]
    show (if t.head?.any Char.isDigit then none else some (['0'], t)) = _
    rw [if_neg]
    cases t with
    | nil => simp
    | cons d t =>
      rw [List.head?_cons, Option.any_some]
      rcases ht d rfl with rfl | rfl | rfl <;> decide
  · have hdigits : whole? (natText n ++ t) = digits? (natText n ++ t) := by
      rw [hcons, List.cons_append]
      unfold whole?
      split
      · next heq => exact absurd (List.cons.inj heq).1 hc
      · rfl
    rw [hdigits, digits?_natText n ht]

theorem fraction?_of_endsNumber (ht : EndsNumber t) : fraction? t = some (none, t) := by
  unfold fraction?
  split
  · exact absurd (ht '.' rfl) (by decide)
  · rfl

theorem exponent?_of_endsNumber (ht : EndsNumber t) : exponent? t = some (none, t) := by
  cases t with
  | nil => rfl
  | cons c t =>
    have hc : ¬ (c = 'e' || c = 'E') = true := by
      rcases ht c rfl with rfl | rfl | rfl <;> decide
    exact if_neg hc

/-- The literal that the text of an integer is. -/
theorem readNumber?_intText (i : Int) (ht : EndsNumber t) :
    readNumber? (intText i ++ t) = some (⟨decide (i < 0), natText i.natAbs, none, none⟩, t) := by
  have hread : ((whole? (natText i.natAbs ++ t)).bind fun w => (fraction? w.2).bind fun f =>
      (exponent? f.2).bind fun e => some ((⟨decide (i < 0), w.1, f.1, e.1⟩, e.2) : JsonNumber.Literal × Text)) =
      some (⟨decide (i < 0), natText i.natAbs, none, none⟩, t) := by
    rw [whole?_natText _ ht]
    simp only [Option.bind_some, fraction?_of_endsNumber ht, exponent?_of_endsNumber ht]
  rw [← hread]
  unfold readNumber? intText
  by_cases hi : i < 0
  · rw [if_pos hi, decide_eq_true hi]
    rfl
  · rw [if_neg hi, decide_eq_false hi]
    obtain ⟨c, ds, hcons⟩ := List.exists_cons_of_ne_nil (natText_ne_nil i.natAbs)
    have hdigit : c.isDigit = true := isDigit_of_mem_natText (by rw [hcons]; exact List.mem_cons_self)
    have hsign : ∀ u, natText i.natAbs ++ t ≠ '-' :: u := by
      intro u hu
      rw [hcons] at hu
      rw [(List.cons.inj hu).1] at hdigit
      exact absurd hdigit (by decide)
    split
    next heq =>
      split at heq
      · next heq' => exact absurd heq' (hsign _)
      · obtain ⟨rfl, rfl⟩ := Prod.mk.inj heq
        rfl

end JsonTree

/-! ## ranges -/

/-- An integer that fits in 64 bits, with a sign if it is negative; any floating point number. -/
def JsonNumber.InRange : JsonNumber → Prop
  | .integer n => -(signedBound : Int) ≤ n ∧ n < wordSize
  | _ => True

namespace JsonNumber

/-- An integer in range is the value of the literal it is written as. -/
theorem value?_of_inRange {i : Int} (h : (integer i).InRange) :
    Literal.value? ⟨decide (i < 0), natText i.natAbs, none, none⟩ = some (integer i) := by
  obtain ⟨hlow, hhigh⟩ := h
  unfold Literal.value?
  simp only [digitsValue_natText]
  by_cases hi : i < 0
  · have hzero : i.natAbs ≠ 0 := by omega
    have hfits : i.natAbs ≤ signedBound := by omega
    have hneg : -(i.natAbs : Int) = i := by omega
    rw [if_pos (decide_eq_true hi), if_neg hzero, if_pos hfits, hneg]
  · have hfits : i.natAbs ≤ maxSignificand := by
      have hsize : maxSignificand + 1 = wordSize := by decide
      omega
    have habs : (i.natAbs : Int) = i := by omega
    rw [if_neg (by simp [hi]), if_pos hfits, habs]

theorem inRange_of_value? {l : Literal} {x : JsonNumber} (h : l.value? = some x) : x.InRange := by
  have hdouble : ∀ o : Option Float, o.map JsonNumber.double = some x → x.InRange := by
    intro o ho
    obtain ⟨f, -, rfl⟩ := Option.map_eq_some_iff.1 ho
    exact trivial
  have hsize : maxSignificand + 1 = wordSize := by decide
  unfold Literal.value? at h
  split at h
  · dsimp only at h
    split at h
    · split at h
      · obtain rfl := Option.some.inj h
        exact trivial
      · split at h
        · next hfits =>
          obtain rfl := Option.some.inj h
          have hbound : (signedBound : Int) < wordSize := by decide
          exact ⟨by omega, by omega⟩
        · exact hdouble _ h
    · split at h
      · next hfits =>
        obtain rfl := Option.some.inj h
        exact ⟨by omega, by omega⟩
      · exact hdouble _ h
  · exact hdouble _ h

end JsonNumber
end ContentSearch
