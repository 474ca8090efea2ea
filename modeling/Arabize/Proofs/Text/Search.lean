import Arabize.Text.Basic

/-! # What a search finds

A text begins with another one if that is a prefix of it, and holds another one if that is
an infix of it.  A search from the end finds the last place where it stands (`LastIn`).
-/

namespace Arabize.Text

theorem startsWith_iff (t head : Text) : startsWith t head = true ↔ head <+: t :=
  List.isPrefixOf_iff_prefix

theorem isSome_find?_iff (needle t : Text) : (find? needle t).isSome = true ↔ needle <:+: t := by
  induction t with
  | nil =>
    simp only [find?, List.infix_nil]
    split <;> simp_all
  | cons c t ih =>
    rw [List.infix_cons_iff, ← startsWith_iff, ← ih]
    simp only [find?]
    split
    next here => simp [here]
    next absent => simp [absent]

theorem occursIn_iff (needle t : Text) : occursIn needle t = true ↔ needle <:+: t :=
  isSome_find?_iff needle t

theorem find?_eq_some {needle t : Text} {i : Nat} (found : find? needle t = some i) :
    ∃ before after, t = before ++ needle ++ after ∧ before.length = i := by
  induction t generalizing i with
  | nil =>
    simp only [find?] at found
    split at found
    next empty =>
      cases found
      exact ⟨[], [], by simp [empty], rfl⟩
    next => cases found
  | cons c t ih =>
    simp only [find?] at found
    split at found
    next here =>
      cases found
      obtain ⟨after, same⟩ := (startsWith_iff _ _).1 here
      exact ⟨[], after, by simp [same], rfl⟩
    next =>
      obtain ⟨j, foundLater, rfl⟩ := Option.map_eq_some_iff.1 found
      obtain ⟨before, after, rfl, rfl⟩ := ih foundLater
      exact ⟨c :: before, after, rfl, rfl⟩

/-- A text that is replaced once gives way at a place where it stands, if there is one. -/
theorem replaceFirst_cases (t old new : Text) :
    (∃ before after, t = before ++ old ++ after ∧
        replaceFirst t old new = before ++ new ++ after) ∨
      (¬ old <:+: t ∧ replaceFirst t old new = t) := by
  unfold replaceFirst
  cases found : find? old t with
  | some i =>
    obtain ⟨before, after, rfl, rfl⟩ := find?_eq_some found
    exact .inl ⟨before, after, rfl, by simp⟩
  | none =>
    have absent : ¬ old <:+: t := by simp [← isSome_find?_iff, found]
    exact .inr ⟨absent, rfl⟩

/-- A code point that is replaced everywhere is left nowhere. -/
theorem not_mem_replaceAll {c : CodePoint} {new : Text} (absent : c ∉ new) (t : Text) :
    c ∉ replaceAll t [c] new := by
  rw [replaceAll]
  induction t with
  | nil => simp [replaceAllFrom]
  | cons d t ih =>
    have first : startsWith (d :: t) [c] = true ↔ c = d := by
      rw [startsWith_iff, List.cons_prefix_cons]
      simp
    rw [replaceAllFrom]
    split
    next => exact fun member => (List.mem_append.1 member).elim absent ih
    next other =>
      rw [first] at other
      exact fun member => (List.mem_cons.1 member).elim other ih

/-! ## The last occurrence -/

theorem startsWith_nil_left {needle : Text} (nonempty : needle ≠ []) :
    startsWith [] needle = false := by
  cases needle with
  | nil => exact absurd rfl nonempty
  | cons d needle => rfl

/-- A text stands at a place in another one, and at none behind it. -/
def LastIn (needle t : Text) (i : Nat) : Prop :=
  startsWith (t.drop i) needle = true ∧ ∀ k, startsWith (t.drop k) needle = true → k ≤ i

theorem LastIn.unique {needle t : Text} {i j : Nat} (last : LastIn needle t i)
    (also : LastIn needle t j) : i = j :=
  Nat.le_antisymm (also.2 i last.1) (last.2 j also.1)

theorem findLast?_cases {needle : Text} (nonempty : needle ≠ []) (t : Text) :
    (findLast? needle t = none ∧ ∀ k, startsWith (t.drop k) needle = false) ∨
      ∃ i, findLast? needle t = some i ∧ LastIn needle t i := by
  induction t with
  | nil =>
    refine .inl ⟨if_neg nonempty, fun k => ?_⟩
    rw [List.drop_nil, startsWith_nil_left nonempty]
  | cons c t ih =>
    rcases ih with ⟨absent, nowhere⟩ | ⟨i, found, here, last⟩
    · have only : ∀ k, startsWith ((c :: t).drop k) needle = true → k = 0 := by
        intro k there
        cases k with
        | zero => rfl
        | succ k =>
          rw [List.drop_succ_cons, nowhere] at there
          cases there
      simp only [findLast?, absent]
      split
      next front => exact .inr ⟨0, rfl, front, fun k there => Nat.le_of_eq (only k there)⟩
      next notFront =>
        refine .inl ⟨rfl, fun k => Bool.eq_false_iff.2 fun there => notFront ?_⟩
        rwa [only k there] at there
    · refine .inr ⟨i + 1, by simp only [findLast?, found], here, fun k there => ?_⟩
      cases k with
      | zero => exact Nat.zero_le _
      | succ k => exact Nat.succ_le_succ (last k there)

theorem prefix_of_findLast? {needle t : Text} {i : Nat}
    (found : findLast? needle t = some i) : needle <+: t.drop i := by
  induction t generalizing i with
  | nil =>
    simp only [findLast?] at found
    split at found
    next empty => simp [empty]
    · cases found
  | cons c t ih =>
    simp only [findLast?] at found
    split at found
    next j later =>
      cases found
      simpa using ih later
    · split at found
      next here =>
        cases found
        simpa using (startsWith_iff _ _).1 here
      · cases found

/-! A single code point is sought from the end. -/

theorem findLast?_eq_none {c : CodePoint} {t : Text} (absent : c ∉ t) : findLast? [c] t = none := by
  induction t with
  | nil => rfl
  | cons e t ih =>
    obtain ⟨other, behind⟩ := not_or.1 (mt List.mem_cons.2 absent)
    have here : startsWith (e :: t) [c] = false := by
      rw [← Bool.not_eq_true, startsWith_iff, List.cons_prefix_cons]
      exact fun both => other both.1
    simp only [findLast?, ih behind, here, Bool.false_eq_true, if_false]

/-- What is in a text is there a last time. -/
theorem exists_last_of_mem {c : CodePoint} {t : Text} (member : c ∈ t) :
    ∃ s u, t = s ++ c :: u ∧ c ∉ u := by
  obtain ⟨u, s, reversed, absent⟩ := List.eq_append_cons_of_mem (List.mem_reverse.2 member)
  refine ⟨s.reverse, u.reverse, ?_, mt List.mem_reverse.1 absent⟩
  rw [← List.reverse_reverse t, reversed]
  simp

theorem findLast?_append {c : CodePoint} {t : Text} (absent : c ∉ t) (s : Text) :
    findLast? [c] (s ++ c :: t) = some s.length := by
  induction s with
  | nil =>
    have here : startsWith (c :: t) [c] = true := by
      rw [startsWith_iff, List.cons_prefix_cons]
      exact ⟨rfl, List.nil_prefix⟩
    simp only [List.nil_append, findLast?, findLast?_eq_none absent, here, if_true, List.length_nil]
  | cons e s ih => simp only [List.cons_append, findLast?, ih, List.length_cons]

end Arabize.Text
