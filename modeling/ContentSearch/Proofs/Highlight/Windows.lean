import ContentSearch.Proofs.Highlight.Excerpts

/-!
# What an excerpt leaves out

A text that is too long for its excerpt is cut into three parts, and the excerpt is the middle one, the *run*, between
ellipses that stand for the others (`cuts_of_windowStart`).  `IsPlaced` says where the run lies around an anchor.

* `isPlaced_of_long`, `isPlaced_of_short`: the run starts with an anchor that fills it, and has any other one in its middle;
* `cutReserving_eq`: setting room aside for the excerpt stays in the words of the machine, like all else that is computed;
* `exists_cut_placed`: so every text has its excerpt, around any part of it and at its start.
-/

namespace ContentSearch.Excerpt

variable {t s m u e : Text} {anchor : Option Text.ByteRange} {maxLength n : Nat}

/-! ## the three parts -/

/-- What stands for a part of a text that is left out. -/
def dots (omitted : Text) : Text := if omitted = [] then [] else ellipsis

@[simp] theorem dots_nil : dots [] = [] := if_pos rfl

/-- An excerpt shows a run of the characters of a text, and leaves out the text before and after it. -/
structure Cuts (t before run after e : Text) : Prop where
  text : before ++ run ++ after = t
  excerpt : e = dots before ++ run ++ dots after

theorem cuts_self (t : Text) : Cuts t [] t [] t := ⟨by simp, by simp⟩

theorem window_eq_dots (hpos : 0 < maxLength) (hfit : n + maxLength ≤ t.length) :
    window t n maxLength = dots (t.take n) ++ (t.drop n).take maxLength ++ dots (t.drop (n + maxLength)) := by
  have hne : t ≠ [] := by
    rintro rfl
    rw [List.length_nil] at hfit
    omega
  have hbefore : t.take n = [] ↔ ¬ 0 < n := by simp [hne]
  have hafter : t.drop (n + maxLength) = [] ↔ ¬ n + maxLength < t.length := by simp
  simp only [window, dots, hbefore, hafter, ite_not]

theorem cuts_of_windowStart (hpos : 0 < maxLength) (hlt : maxLength < t.length) (hsize : t.length < wordSize)
    (hn : windowStart t t.length maxLength anchor = .ok n) (hfit : n + maxLength ≤ t.length) :
    ∃ e, cut t anchor maxLength = .ok e ∧ Cuts t (t.take n) ((t.drop n).take maxLength) (t.drop (n + maxLength)) e := by
  refine ⟨_, cut_eq_window hpos hlt hsize hn hfit, ?_, window_eq_dots hpos hfit⟩
  rw [List.append_assoc, ← List.drop_drop, List.take_append_drop, List.take_append_drop]

theorem length_run (hfit : n + maxLength ≤ t.length) : ((t.drop n).take maxLength).length = maxLength := by
  rw [List.length_take, List.length_drop]
  omega

theorem exists_cuts (hpos : 0 < maxLength) (hsize : t.length < wordSize) (ha : ∀ r, anchor = some r → Text.IsPart t r) :
    ∃ e before run after, cut t anchor maxLength = .ok e ∧ Cuts t before run after e ∧
      run.length = min maxLength t.length := by
  by_cases hle : t.length ≤ maxLength
  · exact ⟨t, [], t, [], cut_of_le hpos hle, cuts_self t, (Nat.min_eq_right hle).symm⟩
  · have hlt := Nat.lt_of_not_le hle
    obtain ⟨n, hn, hfit⟩ := exists_windowStart hlt hsize ha
    obtain ⟨e, hcut, hcuts⟩ := cuts_of_windowStart hpos hlt hsize hn hfit
    exact ⟨e, _, _, _, hcut, hcuts, by rw [length_run hfit, Nat.min_eq_left (Nat.le_of_lt hlt)]⟩

/-! ## around an anchor -/

/-- Where a run lies around a part `m` of the text, which stands between `s` and `u`.  If the run has room for the part, it
holds all of it, and with as much on its left as on its right, save for one character, unless the text ends on one of the
sides; otherwise it is the beginning of the part. -/
structure IsPlaced (s m u : Text) (maxLength : Nat) (before run after : Text) : Prop where
  whole : m.length ≤ maxLength → ∃ left right, s = before ++ left ∧ run = left ++ m ++ right ∧ u = right ++ after ∧
    (m.length < maxLength → before ≠ [] → after ≠ [] →
      left.length ≤ right.length + 1 ∧ right.length ≤ left.length + 1)
  beginning : maxLength < m.length → before = s ∧ run = m.take maxLength

theorem isPlaced_of_long (hm : maxLength ≤ m.length) :
    IsPlaced s m u maxLength ((s ++ m ++ u).take s.length) (((s ++ m ++ u).drop s.length).take maxLength)
      ((s ++ m ++ u).drop (s.length + maxLength)) := by
  have hbefore : (s ++ m ++ u).take s.length = s := by rw [List.append_assoc, List.take_left]
  have hrun : ((s ++ m ++ u).drop s.length).take maxLength = m.take maxLength := by
    rw [List.append_assoc, List.drop_left, List.take_append_of_le_length hm]
  refine ⟨fun hle => ?_, fun _ => ⟨hbefore, hrun⟩⟩
  obtain rfl : maxLength = m.length := Nat.le_antisymm hm hle
  refine ⟨[], [], ?_, ?_, ?_, fun hlt => absurd hlt (Nat.lt_irrefl _)⟩
  · rw [hbefore, List.append_nil]
  · rw [hrun, List.take_length, List.nil_append, List.append_nil]
  · rw [← List.length_append, List.drop_left, List.nil_append]

/-- A run around a shorter part starts half of what is left over before it, as far as the ends of the text allow. -/
theorem isPlaced_of_short (hm : m.length < maxLength) (hlt : maxLength < (s ++ m ++ u).length)
    (hn : n = min (s.length + m.length / 2 - maxLength / 2) ((s ++ m ++ u).length - maxLength)) :
    IsPlaced s m u maxLength ((s ++ m ++ u).take n) (((s ++ m ++ u).drop n).take maxLength)
      ((s ++ m ++ u).drop (n + maxLength)) := by
  have hlength : (s ++ m ++ u).length = s.length + m.length + u.length := by simp [Nat.add_assoc]
  have hstart : n ≤ s.length := by omega
  have hstop : s.length + m.length ≤ n + maxLength := by omega
  refine ⟨fun _ => ⟨s.drop n, u.take (n + maxLength - (s.length + m.length)), ?_, ?_, ?_, ?_⟩,
    fun hlong => absurd hm (Nat.lt_asymm hlong)⟩
  · rw [List.append_assoc, List.take_append_of_le_length hstart, List.take_append_drop]
  · exact run_eq_part hstart hstop
  · have hdrop : (s ++ m ++ u).drop (n + maxLength) = u.drop (n + maxLength - (s.length + m.length)) := by
      rw [← List.length_append, List.drop_append, List.drop_eq_nil_of_le (by rw [List.length_append]; exact hstop),
        List.nil_append]
    rw [hdrop, List.take_append_drop]
  · intro _ hbefore hafter
    have hpos : 0 < n := Nat.pos_of_ne_zero fun h => hbefore (by rw [h, List.take_zero])
    have hmore : n + maxLength < (s ++ m ++ u).length :=
      Nat.lt_of_not_le fun h => hafter (List.drop_eq_nil_of_le h)
    rw [List.length_drop, List.length_take]
    omega

theorem exists_windowStart_placed (hlt : maxLength < (s ++ m ++ u).length) (hsize : (s ++ m ++ u).length < wordSize) :
    ∃ n, windowStart (s ++ m ++ u) (s ++ m ++ u).length maxLength
        (some ⟨Text.byteLength s, Text.byteLength s + Text.byteLength m⟩) = .ok n ∧
      n + maxLength ≤ (s ++ m ++ u).length ∧
      IsPlaced s m u maxLength ((s ++ m ++ u).take n) (((s ++ m ++ u).drop n).take maxLength)
        ((s ++ m ++ u).drop (n + maxLength)) := by
  rcases Nat.lt_or_ge m.length maxLength with hm | hm
  · exact ⟨_, windowStart_of_lt hm hlt hsize, by omega, isPlaced_of_short hm hlt rfl⟩
  · have hlength : (s ++ m ++ u).length = s.length + m.length + u.length := by simp [Nat.add_assoc]
    exact ⟨_, windowStart_of_le hm, by omega, isPlaced_of_long hm⟩

/-! ## room for an excerpt -/

/-- The room that is set aside for a longer text's excerpt: for the run, and for an ellipsis on each side. -/
def room (maxLength : Nat) : Except Fault Nat := addSizes maxLength (2 * Text.byteLength ellipsis)

/-- The excerpt of a text, for which room is set aside. -/
def cutReserving (t : Text) (anchor : Option Text.ByteRange) (maxLength : Nat) : Except Fault Text := do
  if maxLength = 0 then return []
  let count := t.length
  if count ≤ maxLength then return t
  let start ← windowStart t count maxLength anchor
  let stop := min (← addSizes start maxLength) count
  let _ ← room maxLength
  let window := (t.drop start).take (← subSizes stop start)
  return (if 0 < start then ellipsis else []) ++ window ++ (if stop < count then ellipsis else [])

theorem length_le_byteLength (t : Text) : t.length ≤ Text.byteLength t := by
  induction t with
  | nil => exact Nat.le_refl 0
  | cons c t ih =>
    have hc := Char.utf8Size_pos c
    rw [List.length_cons, Text.byteLength_cons]
    omega

/-- There is room for the excerpt of any text that leaves half of the memory free. -/
theorem cutReserving_eq (hsize : Text.byteLength t < wordSize / 2) :
    cutReserving t anchor maxLength = cut t anchor maxLength := by
  have hlength := length_le_byteLength t
  unfold cutReserving cut
  by_cases hpos : maxLength = 0
  · rw [if_pos hpos, if_pos hpos]
  rw [if_neg hpos, if_neg hpos]
  by_cases hle : t.length ≤ maxLength
  · simp only [if_pos hle]
  · have hroom : room maxLength = .ok (maxLength + 2 * Text.byteLength ellipsis) := by
      refine addSizes_eq_ok ?_
      have hbytes : Text.byteLength ellipsis = 3 := by decide
      rw [hbytes]
      unfold wordSize at hsize ⊢
      omega
    simp only [if_neg hle, hroom]
    rfl

/-! ## excerpts -/

/-- **The window of an excerpt.**  Every text that leaves half of the memory free has an excerpt of any length, at its start
and around any of its parts, and no size that is computed for it, the room for it included, leaves the words of the machine.
A text that is short enough is its own excerpt. Of a longer one the excerpt shows a run of exactly that length, with an
ellipsis on each side on which text is left out; the run is at the start of the text, or placed around the part. -/
theorem exists_cut_placed (t : Text) (anchor : Option Text.ByteRange) (maxLength : Nat) (hpos : 1 ≤ maxLength)
    (hsize : Text.byteLength t < wordSize / 2) (ha : ∀ r, anchor = some r → Text.IsPart t r) :
    ∃ e, cut t anchor maxLength = .ok e ∧ cutReserving t anchor maxLength = .ok e ∧
      (t.length ≤ maxLength → e = t) ∧
      (maxLength < t.length → ∃ before run after, Cuts t before run after e ∧ run.length = maxLength ∧
        (anchor = none → before = []) ∧
        ∀ r, anchor = some r → ∃ s m u, t = s ++ m ++ u ∧
          r = ⟨Text.byteLength s, Text.byteLength s + Text.byteLength m⟩ ∧
          IsPlaced s m u maxLength before run after) := by
  have hwords : t.length < wordSize := by
    have hlength := length_le_byteLength t
    omega
  by_cases hle : t.length ≤ maxLength
  · have hcut : cut t anchor maxLength = .ok t := cut_of_le hpos hle
    exact ⟨t, hcut, (cutReserving_eq hsize).trans hcut, fun _ => rfl, fun hlt => absurd hle (Nat.not_le_of_lt hlt)⟩
  have hlt := Nat.lt_of_not_le hle
  cases anchor with
  | none =>
    have hstart : windowStart t t.length maxLength none = .ok 0 := rfl
    have hfit : 0 + maxLength ≤ t.length := by omega
    obtain ⟨e, hcut, hcuts⟩ := cuts_of_windowStart hpos hlt hwords hstart hfit
    exact ⟨e, hcut, (cutReserving_eq hsize).trans hcut, fun h => absurd h hle, fun _ => ⟨_, _, _, hcuts, length_run hfit,
      fun _ => List.take_zero, fun r hr => absurd hr (Option.some_ne_none r).symm⟩⟩
  | some r =>
    obtain ⟨s, m, u, rfl, rfl⟩ := ha r rfl
    obtain ⟨n, hn, hfit, hplaced⟩ := exists_windowStart_placed hlt hwords
    obtain ⟨e, hcut, hcuts⟩ := cuts_of_windowStart hpos hlt hwords hn hfit
    refine ⟨e, hcut, (cutReserving_eq hsize).trans hcut, fun h => absurd h hle, fun _ => ⟨_, _, _, hcuts, length_run hfit,
      fun h => absurd h (Option.some_ne_none _), fun r hr => ?_⟩⟩
    exact ⟨s, m, u, rfl, (Option.some.inj hr).symm, hplaced⟩

/-- The word `three`, in the middle of an excerpt that has text left out on both sides. -/
theorem exists_cut_placed_middle :
    (∀ r, some (⟨8, 13⟩ : Text.ByteRange) = some r → Text.IsPart "one two three four five".toList r) ∧
      Text.byteLength "one two three four five".toList < wordSize / 2 ∧
      cut "one two three four five".toList (some ⟨8, 13⟩) 10 = .ok "...wo three f...".toList ∧
      ∃ before run after, Cuts "one two three four five".toList before run after "...wo three f...".toList ∧
        run.length = 10 := by
  have hpart : ∀ r, some (⟨8, 13⟩ : Text.ByteRange) = some r → Text.IsPart "one two three four five".toList r := by
    intro r hr
    exact ⟨"one two ".toList, "three".toList, " four five".toList, by decide, by rw [← Option.some.inj hr]; decide⟩
  have hsize : Text.byteLength "one two three four five".toList < wordSize / 2 := by decide
  obtain ⟨e, hcut, -, -, hcuts⟩ := exists_cut_placed _ _ 10 (by decide) hsize hpart
  have he : cut "one two three four five".toList (some ⟨8, 13⟩) 10 = .ok "...wo three f...".toList := by decide
  obtain rfl := Except.ok.inj (hcut.symm.trans he)
  obtain ⟨before, run, after, h, hlength, -⟩ := hcuts (by decide)
  exact ⟨hpart, hsize, he, before, run, after, h, hlength⟩

end ContentSearch.Excerpt
