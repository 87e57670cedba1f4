import ContentSearch.Proofs.Json.Numbers

/-!
# Reading back what was written

* `readString?_quote`: a string is read back from its quotation, whatever its characters;
* `readValue?_compact`: so is a value whose integers fit in 64 bits and that holds no floating point number, with fuel for
  twice the number of its characters;
* `read?_compact`: so is the value of a whole text.
-/

namespace ContentSearch
namespace JsonTree

/-! ## strings -/

/-- A text is read as one part of a string, which stands for a character. -/
def StandsFor (c : Char) (written : Text) : Prop :=
  ∃ part, (∀ t, stringParts? (written ++ t) = (stringParts? t).map fun x => (part :: x.1, x.2)) ∧
    ∀ r, joinParts? (part :: r) = (joinParts? r).map (c :: ·)

theorem standsFor_escaped {c e : Char} (he : e ≠ 'u') (h : escaped? e = some c) : StandsFor c ['\\', e] := by
  refine ⟨.char c, ?_, fun _ => rfl⟩
  intro t
  rw [List.cons_append, List.singleton_append]
  conv => lhs; unfold stringParts?
  split
  · next heq => simp at heq
  · next heq => simp at heq
  · next heq => exact absurd (List.cons.inj (List.cons.inj heq).2).1 he
  · next heq =>
    obtain ⟨rfl, rfl⟩ := List.cons.inj (List.cons.inj heq).2
    rw [h]
    cases stringParts? t <;> rfl
  · next hbackslash heq => exact absurd (List.cons.inj heq).2.symm (hbackslash e t (List.cons.inj heq).1.symm)

theorem standsFor_unit {c : Char} (h : c.toNat < 0x20) : StandsFor c ("\\u00".toList ++ Json.hexByte c.toNat) := by
  have hhex : ∀ n < 32, hexUnit? '0' '0' (Nat.digitChar (n / 16)) (Nat.digitChar (n % 16)) = some n := by decide
  refine ⟨.unit c.toNat, ?_, ?_⟩
  · intro t
    have hread : stringParts? ("\\u00".toList ++ Json.hexByte c.toNat ++ t) =
        (hexUnit? '0' '0' (Nat.digitChar (c.toNat / 16)) (Nat.digitChar (c.toNat % 16))).bind fun n =>
          (stringParts? t).bind fun r => some (.unit n :: r.1, r.2) := rfl
    rw [hread, hhex c.toNat h]
    cases stringParts? t <;> rfl
  · intro r
    have hplain : (decide (c.toNat < 0xD800) || decide (0xE000 ≤ c.toNat)) = true := by simp; omega
    conv => lhs; unfold joinParts?
    rw [if_pos hplain, Char.ofNat_toNat]

theorem standsFor_self {c : Char} (hquote : c ≠ '"') (hbackslash : c ≠ '\\') (hcontrol : ¬ c.toNat < 0x20) :
    StandsFor c [c] := by
  refine ⟨.char c, ?_, fun _ => rfl⟩
  intro t
  rw [List.singleton_append]
  conv => lhs; unfold stringParts?
  split
  · next heq => simp at heq
  · next heq => exact absurd (List.cons.inj heq).1 hquote
  · next heq => exact absurd (List.cons.inj heq).1 hbackslash
  · next heq => exact absurd (List.cons.inj heq).1 hbackslash
  · next heq =>
    obtain ⟨rfl, rfl⟩ := List.cons.inj heq
    rw [if_neg hcontrol]
    cases stringParts? t <;> rfl

/-- What a character is written as is read as the character. -/
theorem standsFor_escape (c : Char) : StandsFor c (Json.escape c) := by
  unfold Json.escape
  split
  · next h => exact standsFor_escaped (by decide) (by rw [h]; rfl)
  split
  · next h => exact standsFor_escaped (by decide) (by rw [h]; rfl)
  split
  · next h => exact standsFor_escaped (by decide) (by rw [h]; rfl)
  split
  · next h => exact standsFor_escaped (by decide) (by rw [h]; rfl)
  split
  · next h => exact standsFor_escaped (by decide) (by rw [h]; rfl)
  split
  · next h => exact standsFor_escaped (by decide) (by rw [h]; rfl)
  split
  · next h => exact standsFor_escaped (by decide) (by rw [h]; rfl)
  split
  · next hcontrol => exact standsFor_unit hcontrol
  · next hquote hbackslash _ _ _ _ _ hcontrol => exact standsFor_self hquote hbackslash hcontrol

/-- A string is read back from its quotation. -/
theorem readString?_quote (s t : Text) : readString? (s.flatMap Json.escape ++ '"' :: t) = some (some s, t) := by
  have hparts : ∃ parts, stringParts? (s.flatMap Json.escape ++ '"' :: t) = some (parts, t) ∧
      joinParts? parts = some s := by
    induction s with
    | nil => exact ⟨[], rfl, rfl⟩
    | cons c s ih =>
      obtain ⟨part, hpart, hjoin⟩ := standsFor_escape c
      obtain ⟨parts, hparts, hs⟩ := ih
      refine ⟨part :: parts, ?_, ?_⟩
      · rw [List.flatMap_cons, List.append_assoc, hpart, hparts]
        rfl
      · rw [hjoin, hs]
        rfl
  obtain ⟨parts, hparts, hs⟩ := hparts
  rw [readString?, hparts, ← hs]
  rfl

/-! ## the starts of values -/

/-- A character that a value may start with: no blank, and not the end of an array. -/
def Opens (c : Char) : Prop := c ≠ ' ' ∧ c ≠ '\n' ∧ c ≠ '\t' ∧ c ≠ '\r' ∧ c ≠ ']'

theorem skipBlanks_of_opens {c : Char} (h : Opens c) (t : Text) : skipBlanks (c :: t) = c :: t := by
  obtain ⟨hspace, hline, htab, hreturn, -⟩ := h
  exact List.dropWhile_cons_of_neg (by simp [hspace, hline, htab, hreturn])

theorem exists_intText_cons (i : Int) : ∃ c t, intText i = c :: t ∧ (c.isDigit = true ∨ c = '-') := by
  unfold intText
  split
  · exact ⟨'-', _, rfl, .inr rfl⟩
  · obtain ⟨c, ds, hcons⟩ := List.exists_cons_of_ne_nil (natText_ne_nil i.natAbs)
    exact ⟨c, ds, hcons, .inl (isDigit_of_mem_natText (by rw [hcons]; exact List.mem_cons_self))⟩

theorem opens_of_isDigit {c : Char} (h : c.isDigit = true ∨ c = '-') : Opens c := by
  refine ⟨?_, ?_, ?_, ?_, ?_⟩ <;>
  · rintro rfl
    exact absurd h (by decide)

theorem readValue?_number {c : Char} (h : c.isDigit = true ∨ c = '-') (fuel : Nat) (t : Text) :
    readValue? (fuel + 1) (c :: t) = (readNumber? (c :: t)).map fun x => (.number x.1.value?, x.2) := by
  have hne : ∀ d, ¬ (d.isDigit = true ∨ d = '-') → ∀ u, c :: t ≠ d :: u := by
    rintro d hd u heq
    rw [(List.cons.inj heq).1] at h
    exact hd h
  rw [readValue?, skipBlanks_of_opens (opens_of_isDigit h)]
  split
  · next heq => exact absurd heq (hne 'n' (by decide) _)
  · next heq => exact absurd heq (hne 't' (by decide) _)
  · next heq => exact absurd heq (hne 'f' (by decide) _)
  · next heq => exact absurd heq (hne '"' (by decide) _)
  · next heq => exact absurd heq (hne '[' (by decide) _)
  · next heq => exact absurd heq (hne '\x7b' (by decide) _)
  · rfl

/-! ## one step of reading -/

section Steps

variable {fuel : Nat} {t u v : Text} {item : JsonTree} {items : List JsonTree} {members : List (Option Text × JsonTree)}

theorem readValue?_array {c : Char} (h : Opens c) :
    readValue? (fuel + 1) ('[' :: c :: t) = (readItems? fuel (c :: t)).map fun x => (.array x.1, x.2) := by
  have hstart : skipBlanks ('[' :: c :: t) = '[' :: c :: t := rfl
  rw [readValue?, hstart]
  simp only [skipBlanks_of_opens h]
  split
  · next heq => exact absurd (List.cons.inj heq).1 h.2.2.2.2
  · rfl

theorem readItems?_last (h : readValue? fuel t = some (item, ']' :: u)) :
    readItems? (fuel + 1) t = some ([item], u) := by
  rw [readItems?, h]
  rfl

theorem readItems?_cons (h : readValue? fuel t = some (item, ',' :: u)) (hrest : readItems? fuel u = some (items, v)) :
    readItems? (fuel + 1) t = some (item :: items, v) := by
  rw [readItems?, h]
  show ((readItems? fuel u).bind fun r => some (item :: r.1, r.2)) = _
  rw [hrest]
  rfl

theorem quote_append (k : Text) : Json.quote k ++ ':' :: t = '"' :: (k.flatMap Json.escape ++ '"' :: ':' :: t) := by
  simp [Json.quote]

theorem skipBlanks_quote (t : Text) : skipBlanks ('"' :: t) = '"' :: t := rfl

theorem skipBlanks_colon (t : Text) : skipBlanks (':' :: t) = ':' :: t := rfl

theorem readMembers?_last (k : Text) (h : readValue? fuel t = some (item, '\x7d' :: u)) :
    readMembers? (fuel + 1) (Json.quote k ++ ':' :: t) = some ([(some k, item)], u) := by
  rw [quote_append, readMembers?, skipBlanks_quote]
  simp only [readString?_quote, Option.bind_eq_bind, Option.bind_some, skipBlanks_colon, h]
  rfl

theorem readMembers?_cons (k : Text) (h : readValue? fuel t = some (item, ',' :: u))
    (hrest : readMembers? fuel u = some (members, v)) :
    readMembers? (fuel + 1) (Json.quote k ++ ':' :: t) = some ((some k, item) :: members, v) := by
  have hcomma : skipBlanks (',' :: u) = ',' :: u := rfl
  rw [quote_append, readMembers?, skipBlanks_quote]
  simp only [readString?_quote, Option.bind_eq_bind, Option.bind_some, skipBlanks_colon, h, hcomma, hrest]
  rfl

end Steps

end JsonTree

/-! ## values -/

namespace Json

mutual

/-- Whether the integers of a value fit in 64 bits, and it has no floating point numbers. -/
def Plain : Json → Prop
  | .number (.integer n) => (JsonNumber.integer n).InRange
  | .number _ => False
  | .array items => PlainItems items
  | .object members => PlainMembers members
  | _ => True

def PlainItems : List Json → Prop
  | [] => True
  | j :: r => j.Plain ∧ PlainItems r

def PlainMembers : List (Text × Json) → Prop
  | [] => True
  | (_, j) :: r => j.Plain ∧ PlainMembers r

end

theorem exists_compact_cons {j : Json} (h : j.Plain) : ∃ c t, j.compact = c :: t ∧ JsonTree.Opens c := by
  match j, h with
  | .null, _ => exact ⟨'n', "ull".toList, rfl, by unfold JsonTree.Opens; decide⟩
  | .bool true, _ => exact ⟨'t', "rue".toList, rfl, by unfold JsonTree.Opens; decide⟩
  | .bool false, _ => exact ⟨'f', "alse".toList, rfl, by unfold JsonTree.Opens; decide⟩
  | .number (.integer n), _ =>
    obtain ⟨c, t, hcons, hc⟩ := JsonTree.exists_intText_cons n
    exact ⟨c, t, hcons, JsonTree.opens_of_isDigit hc⟩
  | .string s, _ => exact ⟨'"', _, rfl, by unfold JsonTree.Opens; decide⟩
  | .array items, _ => exact ⟨'[', _, rfl, by unfold JsonTree.Opens; decide⟩
  | .object members, _ => exact ⟨'\x7b', _, rfl, by unfold JsonTree.Opens; decide⟩

theorem exists_compactItems_cons {j : Json} {r : List Json} (h : j.Plain) :
    ∃ c t, compactItems (j :: r) = c :: t ∧ JsonTree.Opens c := by
  obtain ⟨c, t, hcons, hc⟩ := exists_compact_cons h
  cases r with
  | nil => exact ⟨c, t, hcons, hc⟩
  | cons k r =>
    refine ⟨c, t ++ ',' :: compactItems (k :: r), ?_, hc⟩
    show j.compact ++ ',' :: compactItems (k :: r) = _
    rw [hcons, List.cons_append]

theorem exists_compactMembers_cons (k : Text) (j : Json) (r : List (Text × Json)) :
    ∃ t, compactMembers ((k, j) :: r) = '"' :: t := by
  cases r with
  | nil => exact ⟨_, rfl⟩
  | cons m r => exact ⟨_, rfl⟩

theorem endsNumber_cons {c : Char} (h : c = ',' ∨ c = ']' ∨ c = '\x7d') (t : Text) : EndsNumber (c :: t) := by
  intro d hd
  rw [← Option.some.inj hd]
  exact h

mutual

/-- A plain value is read back from the text it is written as. -/
theorem readValue?_compact : (j : Json) → j.Plain → ∀ {t : Text} {fuel : Nat}, EndsNumber t →
    2 * j.compact.length ≤ fuel → JsonTree.readValue? fuel (j.compact ++ t) = some (j.toTree, t)
  | .null, _, t, fuel + 1, _, _ => rfl
  | .bool true, _, t, fuel + 1, _, _ => rfl
  | .bool false, _, t, fuel + 1, _, _ => rfl
  | .number (.integer n), h, t, fuel + 1, ht, _ => by
    obtain ⟨c, u, hcons, hc⟩ := JsonTree.exists_intText_cons n
    have hread := JsonTree.readNumber?_intText n ht
    show JsonTree.readValue? (fuel + 1) (intText n ++ t) = _
    rw [hcons] at hread ⊢
    rw [List.cons_append] at hread ⊢
    rw [JsonTree.readValue?_number hc, hread, Option.map_some, JsonNumber.value?_of_inRange h]
    rfl
  | .string s, _, t, fuel + 1, _, _ => by
    have hquote : (Json.string s).compact ++ t = '"' :: (s.flatMap escape ++ '"' :: t) := by simp [compact, quote]
    have hread : JsonTree.readValue? (fuel + 1) ('"' :: (s.flatMap escape ++ '"' :: t)) =
      (JsonTree.readString? (s.flatMap escape ++ '"' :: t)).map fun x => (.string x.1, x.2) := rfl
    rw [hquote, hread, JsonTree.readString?_quote]
    rfl
  | .array [], _, t, fuel + 1, _, _ => rfl
  | .array (j :: r), h, t, fuel + 1, _, hfuel => by
    have hlength : (Json.array (j :: r)).compact.length = (compactItems (j :: r)).length + 2 := by simp [compact]
    have hitems : JsonTree.readItems? fuel (compactItems (j :: r) ++ ']' :: t) = some (itemTrees (j :: r), t) :=
      readItems?_compact (j :: r) (by simp) h t (by omega)
    obtain ⟨c, u, hcons, hc⟩ := exists_compactItems_cons (r := r) h.1
    have happend : (Json.array (j :: r)).compact ++ t = '[' :: (compactItems (j :: r) ++ ']' :: t) := by
      simp [compact]
    rw [happend]
    rw [hcons, List.cons_append] at hitems ⊢
    rw [JsonTree.readValue?_array hc, hitems]
    rfl
  | .object [], _, t, fuel + 1, _, _ => rfl
  | .object ((k, j) :: r), h, t, fuel + 1, _, hfuel => by
    have hlength : (Json.object ((k, j) :: r)).compact.length = (compactMembers ((k, j) :: r)).length + 2 := by
      simp [compact]
    have hmembers : JsonTree.readMembers? fuel (compactMembers ((k, j) :: r) ++ '\x7d' :: t) =
        some (memberTrees ((k, j) :: r), t) :=
      readMembers?_compact ((k, j) :: r) (by simp) h t (by omega)
    obtain ⟨u, hcons⟩ := exists_compactMembers_cons k j r
    have happend : (Json.object ((k, j) :: r)).compact ++ t =
        '\x7b' :: (compactMembers ((k, j) :: r) ++ '\x7d' :: t) := by
      simp [compact]
    rw [happend]
    rw [hcons, List.cons_append] at hmembers ⊢
    have hread : JsonTree.readValue? (fuel + 1) ('\x7b' :: '"' :: (u ++ '\x7d' :: t)) =
      (JsonTree.readMembers? fuel ('"' :: (u ++ '\x7d' :: t))).map fun x => (.object x.1, x.2) := rfl
    rw [hread, hmembers]
    rfl
  | j, h, _, 0, _, hfuel => by
    -- no value is written as the empty text, so the fuel is enough for at least one character
    obtain ⟨c, u, hcons, -⟩ := exists_compact_cons h
    rw [hcons, List.length_cons] at hfuel
    omega

/-- The items of an array are read back up to its end. -/
theorem readItems?_compact : (items : List Json) → items ≠ [] → PlainItems items → ∀ (t : Text) {fuel : Nat},
    2 * (compactItems items).length + 1 ≤ fuel →
      JsonTree.readItems? fuel (compactItems items ++ ']' :: t) = some (itemTrees items, t)
  | [], hne, _, _, _, _ => absurd rfl hne
  | [j], _, h, t, fuel + 1, hfuel =>
    JsonTree.readItems?_last (readValue?_compact j h.1 (endsNumber_cons (by decide) t) (Nat.le_of_succ_le_succ hfuel))
  | j :: k :: r, _, h, t, fuel + 1, hfuel => by
    have hlength : (compactItems (j :: k :: r)).length = j.compact.length + (compactItems (k :: r)).length + 1 := by
      simp [compactItems]
      omega
    have happend : compactItems (j :: k :: r) ++ ']' :: t = j.compact ++ ',' :: (compactItems (k :: r) ++ ']' :: t) := by
      simp [compactItems]
    rw [happend]
    exact JsonTree.readItems?_cons (readValue?_compact j h.1 (endsNumber_cons (by decide) _) (by omega))
      (readItems?_compact (k :: r) (by simp) h.2 t (by omega))

/-- The members of an object are read back up to its end. -/
theorem readMembers?_compact : (members : List (Text × Json)) → members ≠ [] → PlainMembers members →
    ∀ (t : Text) {fuel : Nat}, 2 * (compactMembers members).length + 1 ≤ fuel →
      JsonTree.readMembers? fuel (compactMembers members ++ '\x7d' :: t) = some (memberTrees members, t)
  | [], hne, _, _, _, _ => absurd rfl hne
  | [(k, j)], _, h, t, fuel + 1, hfuel => by
    have hlength : (compactMembers [(k, j)]).length = (quote k).length + j.compact.length + 1 := by
      simp [compactMembers]
      omega
    have happend : compactMembers [(k, j)] ++ '\x7d' :: t = quote k ++ ':' :: (j.compact ++ '\x7d' :: t) := by
      simp [compactMembers]
    rw [happend]
    exact JsonTree.readMembers?_last k (readValue?_compact j h.1 (endsNumber_cons (by decide) t) (by omega))
  | (k, j) :: m :: r, _, h, t, fuel + 1, hfuel => by
    have hlength : (compactMembers ((k, j) :: m :: r)).length =
        (quote k).length + j.compact.length + (compactMembers (m :: r)).length + 2 := by
      simp [compactMembers]
      omega
    have happend : compactMembers ((k, j) :: m :: r) ++ '\x7d' :: t =
        quote k ++ ':' :: (j.compact ++ ',' :: (compactMembers (m :: r) ++ '\x7d' :: t)) := by
      simp [compactMembers]
    rw [happend]
    exact JsonTree.readMembers?_cons k (readValue?_compact j h.1 (endsNumber_cons (by decide) _) (by omega))
      (readMembers?_compact (m :: r) (by simp) h.2 t (by omega))

end

/-- **A plain value is read back from its text.** -/
theorem read?_compact {j : Json} (h : j.Plain) : JsonTree.read? j.compact = some j.toTree := by
  have hread : JsonTree.readValue? (2 * j.compact.length + 2) (j.compact ++ []) = some (j.toTree, []) :=
    readValue?_compact j h (fun c hc => by simp at hc) (by omega)
  rw [List.append_nil] at hread
  rw [JsonTree.read?, hread]
  rfl

end Json
end ContentSearch
