import Arabize.Text.Basic
import Mathlib.Data.List.Lex
import Mathlib.Order.Fin.Basic

/-! # Texts in order

Code point order is the lexicographic order of texts.  A list of texts is sorted by it, and
strictly increasing if no text is in it twice.
-/

namespace Arabize.Text

theorem before_iff_lt (s t : Text) : before s t = true ↔ s < t := by
  induction s generalizing t with
  | nil => cases t <;> simp [before]
  | cons a s ih =>
    cases t with
    | nil => simp [before]
    | cons b t => simp [before, ih, List.cons_lt_cons_iff]

theorem le_iff (s t : Text) : le s t = true ↔ s ≤ t := by
  rw [le, Bool.not_eq_true', ← Bool.not_eq_true, before_iff_lt, not_lt]

theorem sort_perm (ts : List Text) : (sort ts).Perm ts := List.mergeSort_perm ts le

theorem mem_sort {t : Text} {ts : List Text} : t ∈ sort ts ↔ t ∈ ts := (sort_perm ts).mem_iff

/-- Texts that are all different are strictly increasing once they are sorted. -/
theorem pairwise_sort {ts : List Text} (nodup : ts.Nodup) : (sort ts).Pairwise (· < ·) := by
  have ordered : (sort ts).Pairwise fun s t => le s t = true := by
    refine List.pairwise_mergeSort (fun r s t => ?_) (fun s t => ?_) ts
    · simp only [le_iff]
      exact le_trans
    · rw [Bool.or_eq_true, le_iff, le_iff]
      exact le_total s t
  have different : (sort ts).Pairwise (· ≠ ·) := (sort_perm ts).nodup_iff.2 nodup
  exact (ordered.and different).imp fun both => lt_of_le_of_ne ((le_iff _ _).1 both.1) both.2

end Arabize.Text
