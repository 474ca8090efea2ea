import Arabize.Proofs.Patch
import Arabize.Script.Edit

/-! # Splices that lie apart

Splices are applied from the highest start down, so that what is still to be replaced keeps
its place.  When their stretches lie apart, the outcome is the source with each stretch
replaced and every byte between them kept (`applySplices_eq_weave`).
-/

namespace Arabize.Script

/-- A splice as a patch of the source. -/
def Splice.patch (s : Splice) : Patch UInt8 := ⟨s.start, s.stop, s.bytes⟩

/-- The splices of a list as patches of the source. -/
def patches (splices : List Splice) : List (Patch UInt8) := splices.map Splice.patch

variable {source : Bytes} {n : Nat} {splices : List Splice}

/-- From the highest start down is then from the last one to the first. -/
theorem descending_eq_reverse (row : InRow source n (patches splices)) :
    descending splices = splices.reverse := by
  induction splices generalizing n with
  | nil => exact List.mergeSort_nil
  | cons s rest ih =>
    obtain ⟨_, nonempty, behind⟩ := row
    have sorted : (descending (s :: rest)).Pairwise fun a b => decide (b.start ≤ a.start) = true :=
      List.pairwise_mergeSort (by simp; omega) (by simp; omega) _
    obtain ⟨higher, lower, all, others, _⟩ :=
      @List.mergeSort_cons _ (fun a b : Splice => decide (b.start ≤ a.start)) (by simp; omega)
        (by simp; omega) s rest
    -- No stretch of the rest starts as low as the first one, so none is sorted behind it.
    have none_lower : lower = [] := by
      rw [List.eq_nil_iff_forall_not_mem]
      intro t member
      rw [descending, all, List.pairwise_append, List.pairwise_cons] at sorted
      have notHigher := sorted.2.1.1 t member
      have isRest : t ∈ rest := by
        rw [← @List.mem_mergeSort _ (fun a b : Splice => decide (b.start ≤ a.start)), others]
        exact List.mem_append_right _ member
      have later : s.stop ≤ t.start := behind.le_start (List.mem_map_of_mem isRest)
      change s.start < s.stop at nonempty
      rw [decide_eq_true_eq] at notHigher
      omega
    have reversed := ih behind
    rw [descending, others, none_lower, List.append_nil] at reversed
    rw [descending, all, none_lower, reversed, List.reverse_cons]

/-- What later splices leave of the source: all that stands before them. -/
theorem foldr_apply_of_inRow (row : InRow source n (patches splices)) :
    splices.foldr Splice.apply source = source.take n ++ weave source n (patches splices) := by
  induction splices generalizing n with
  | nil => exact (List.take_append_drop n source).symm
  | cons s rest ih =>
    obtain ⟨before, nonempty, behind⟩ := row
    have inside := behind.le_length
    change n ≤ s.start at before
    change s.start < s.stop at nonempty
    change s.stop ≤ source.length at inside
    have stopLength : (source.take s.stop).length = s.stop := by
      rw [List.length_take]
      omega
    have startLength : (source.take n).length = n := by
      rw [List.length_take]
      omega
    have kept : source.take s.start = source.take n ++ (source.drop n).take (s.start - n) := by
      rw [← List.take_add]
      congr 1
      omega
    -- What stands behind is replaced already; this stretch is taken out of the rest.
    rw [List.foldr_cons, ih behind, Splice.apply]
    change _ = source.take n ++ ((source.drop n).take (s.start - n) ++ s.bytes ++
      weave source s.stop (patches rest))
    rw [show s.patch.stop = s.stop from rfl, List.drop_left' stopLength,
      List.take_append_of_le_length (by omega), List.take_take, Nat.min_eq_left (by omega), kept]
    simp only [List.append_assoc]

/-- Splices that lie apart replace their stretches and keep the bytes between them. -/
theorem applySplices_eq_weave (row : InRow source 0 (patches splices)) :
    applySplices splices source = weave source 0 (patches splices) := by
  rw [applySplices, descending_eq_reverse row, List.foldl_reverse]
  exact foldr_apply_of_inRow row

end Arabize.Script
