import Arabize.Text.Basic

/-! # The pieces of a text

A text that is split at a separator falls into pieces that hold none, at least one of them, and
these pieces put together again are split into themselves.
-/

namespace Arabize.Text

variable {sep : CodePoint} {pieces cs : List Text} {t name : Text}

theorem splitOn_ne_nil (sep : CodePoint) (t : Text) : splitOn sep t ≠ [] := by
  cases t with
  | nil => exact List.cons_ne_nil _ _
  | cons c t =>
    rw [splitOn]
    split
    · exact List.cons_ne_nil _ _
    · split <;> exact List.cons_ne_nil _ _

/-- A text is split at a separator into the pieces before it and those behind it. -/
theorem splitOn_append (s t : Text) :
    splitOn sep (s ++ sep :: t) = splitOn sep s ++ splitOn sep t := by
  induction s with
  | nil => simp only [List.nil_append, splitOn, if_true, List.cons_append]
  | cons c s ih =>
    by_cases cut : c = sep
    · simp only [List.cons_append, splitOn, if_pos cut, ih]
    · simp only [List.cons_append, splitOn, if_neg cut, ih]
      cases pieces : splitOn sep s with
      | nil => exact absurd pieces (splitOn_ne_nil sep s)
      | cons piece rest => rfl

/-- All pieces of a text are empty only if it holds nothing but separators. -/
theorem splitOn_isEmpty_iff (sep : CodePoint) (t : Text) :
    (splitOn sep t).all List.isEmpty = true ↔ ∀ c ∈ t, c = sep := by
  induction t with
  | nil => simp [splitOn]
  | cons c t ih =>
    by_cases cut : c = sep
    · simp [splitOn, cut, ih]
    · simp only [splitOn, if_neg cut]
      split <;> simp [cut]

theorem not_mem_splitOn (member : t ∈ splitOn sep name) : sep ∉ t := by
  induction name generalizing t with
  | nil =>
    simp only [splitOn, List.mem_singleton] at member
    simp [member]
  | cons c name ih =>
    simp only [splitOn] at member
    split at member
    · rcases List.mem_cons.1 member with rfl | inner
      · simp
      · exact ih inner
    next other =>
      split at member
      · rw [List.mem_singleton.1 member]
        simpa using Ne.symm other
      next piece rest split =>
        rw [split] at ih
        rcases List.mem_cons.1 member with rfl | inner
        · simp [Ne.symm other, ih List.mem_cons_self]
        · exact ih (List.mem_cons_of_mem _ inner)

theorem splitOn_of_not_mem (free : sep ∉ t) : splitOn sep t = [t] := by
  induction t with
  | nil => rfl
  | cons c t ih =>
    simp only [List.mem_cons, not_or] at free
    simp only [splitOn, if_neg (Ne.symm free.1), ih free.2]

theorem intercalate_append (filled : pieces ≠ []) (more : cs ≠ []) :
    intercalate [sep] (pieces ++ cs) = intercalate [sep] pieces ++ sep :: intercalate [sep] cs := by
  induction pieces with
  | nil => exact absurd rfl filled
  | cons piece rest ih =>
    cases rest with
    | nil =>
      obtain ⟨first, behind, rfl⟩ := List.exists_cons_of_ne_nil more
      simp [intercalate]
    | cons next rest =>
      have inner := ih (by simp)
      simp only [List.cons_append, intercalate] at inner ⊢
      simp [inner]

/-- Pieces that hold no separator are what their text is split into. -/
theorem splitOn_intercalate (filled : pieces ≠ []) (free : ∀ piece ∈ pieces, sep ∉ piece) :
    splitOn sep (intercalate [sep] pieces) = pieces := by
  induction pieces with
  | nil => exact absurd rfl filled
  | cons piece rest ih =>
    have first := splitOn_of_not_mem (free piece List.mem_cons_self)
    cases rest with
    | nil => exact first
    | cons next rest =>
      have behind := ih (by simp) fun other member => free other (List.mem_cons_of_mem _ member)
      calc splitOn sep (intercalate [sep] (piece :: next :: rest))
          = splitOn sep (piece ++ sep :: intercalate [sep] (next :: rest)) := by
            simp [intercalate]
        _ = piece :: next :: rest := by
            rw [splitOn_append, first, behind]
            rfl

end Arabize.Text
