import ContentSearch.Text.Basic

/-!
# Occurrence of one text in another

* `occursIn_iff`: the search for a text finds exactly the texts that are a contiguous run of characters;
* `find?_eq_some_iff`: and where it finds one, that is the first place at which it stands.
-/

namespace ContentSearch.Text

theorem occursIn_iff {needle t : Text} : occursIn needle t = true ↔ needle <:+: t := by
  induction t with
  | nil => simp [occursIn]
  | cons c t ih => rw [occursIn, Bool.or_eq_true, ih, List.isPrefixOf_iff_prefix, List.infix_cons_iff]

/-- The place of a text in another: the first one at which it stands. -/
theorem find?_eq_some_iff {needle t : Text} {n : Nat} : find? needle t = some n ↔
    n ≤ t.length ∧ needle <+: t.drop n ∧ ∀ k < n, ¬ needle <+: t.drop k := by
  induction t generalizing n with
  | nil =>
    rw [find?]
    split
    · next h =>
      obtain rfl := List.isEmpty_iff.1 h
      constructor
      · intro hn
        obtain rfl := Option.some.inj hn
        simp
      · rintro ⟨hn, -, -⟩
        rw [Nat.le_zero.1 hn]
    · next h =>
      have hne : needle ≠ [] := by simpa using h
      simp [hne]
  | cons c t ih =>
    rw [find?]
    split
    · next h =>
      have hfront : needle <+: c :: t := List.isPrefixOf_iff_prefix.1 h
      constructor
      · intro hn
        obtain rfl := Option.some.inj hn
        exact ⟨Nat.zero_le _, hfront, fun k hk => absurd hk (Nat.not_lt_zero k)⟩
      · rintro ⟨-, -, hfirst⟩
        cases n with
        | zero => rfl
        | succ n => exact absurd hfront (hfirst 0 (Nat.succ_pos n))
    · next h =>
      have hfront : ¬ needle <+: c :: t := fun hp => h (List.isPrefixOf_iff_prefix.2 hp)
      cases n with
      | zero => simp [hfront]
      | succ n =>
        rw [Option.map_eq_some_iff]
        constructor
        · rintro ⟨m, hm, hmn⟩
          obtain rfl : m = n := Nat.succ.inj hmn
          obtain ⟨hle, hp, hfirst⟩ := ih.1 hm
          refine ⟨Nat.succ_le_succ hle, hp, ?_⟩
          intro k hk
          cases k with
          | zero => exact hfront
          | succ k => exact hfirst k (Nat.lt_of_succ_lt_succ hk)
        · rintro ⟨hle, hp, hfirst⟩
          refine ⟨n, ih.2 ⟨Nat.le_of_succ_le_succ hle, hp, ?_⟩, rfl⟩
          exact fun k hk => hfirst (k + 1) (Nat.succ_lt_succ hk)

/-- A text is found no later than at a place where it stands. -/
theorem exists_find?_append (s needle u : Text) :
    ∃ n, find? needle (s ++ needle ++ u) = some n ∧ n ≤ s.length := by
  induction s with
  | nil =>
    cases needle with
    | nil => cases u <;> exact ⟨0, by simp [find?], Nat.le_refl 0⟩
    | cons c needle =>
      refine ⟨0, ?_, Nat.le_refl 0⟩
      have hfront : (c :: needle).isPrefixOf (c :: (needle ++ u)) = true :=
        List.isPrefixOf_iff_prefix.2 (List.prefix_append (c :: needle) u)
      show find? (c :: needle) (c :: (needle ++ u)) = some 0
      rw [find?, if_pos hfront]
  | cons c s ih =>
    obtain ⟨n, hn, hle⟩ := ih
    show ∃ n, find? needle (c :: (s ++ needle ++ u)) = some n ∧ _
    rw [find?]
    split
    · exact ⟨0, rfl, Nat.zero_le _⟩
    · exact ⟨n + 1, by rw [hn]; rfl, Nat.succ_le_succ hle⟩

end ContentSearch.Text
