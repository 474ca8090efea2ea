import Arabize.Text.Basic

/-! # Numbers in decimal

A number is written with digits only and without a leading zero, and its digits have it for
their value.  No row of digits with that value is shorter.
-/

namespace Arabize.Text

theorem val_digit {n : Nat} (small : n < 10) : (digit n).val = 0x30 + n := by
  simp only [digit, small, if_true, CodePoint.ofNat, Fin.ofNat]
  exact Nat.mod_eq_of_lt (by omega)

theorem isDigit_digit {n : Nat} (small : n < 10) : (digit n).isDigit = true := by
  rw [CodePoint.isDigit, val_digit small, Bool.and_eq_true, decide_eq_true_eq, decide_eq_true_eq]
  omega

theorem isDigit_of_mem_ofNat {n : Nat} {c : CodePoint} (member : c ∈ ofNat n) :
    c.isDigit = true := by
  fun_induction ofNat n with
  | case1 n small =>
    rw [List.mem_singleton] at member
    exact member ▸ isDigit_digit small
  | case2 n _ ih =>
    rw [List.mem_append, List.mem_singleton] at member
    rcases member with front | rfl
    · exact ih front
    · exact isDigit_digit (by omega)

theorem ofNat_ne_nil (n : Nat) : ofNat n ≠ [] := by
  unfold ofNat
  split <;> simp

/-- No number but zero is written with a zero at its front. -/
theorem eq_zero_of_head_ofNat {n : Nat} (front : (ofNat n).head? = some (CodePoint.ofChar '0')) :
    n = 0 := by
  fun_induction ofNat n with
  | case1 n small =>
    have same := congrArg Fin.val (Option.some.inj front)
    rw [val_digit small] at same
    exact Nat.add_left_cancel same
  | case2 n large ih =>
    obtain ⟨c, rest, written⟩ := List.exists_cons_of_ne_nil (ofNat_ne_nil (n / 10))
    rw [written] at front ih
    have := ih front
    omega

theorem decimalValue_concat (ds : Text) (c : CodePoint) :
    decimalValue (ds ++ [c]) = decimalValue ds * 10 + (c.val - 0x30) := by
  rw [decimalValue, List.foldl_append]
  rfl

theorem decimalValue_ofNat (n : Nat) : decimalValue (ofNat n) = n := by
  fun_induction ofNat n with
  | case1 n small =>
    rw [← List.nil_append [digit n], decimalValue_concat, val_digit small, decimalValue,
      List.foldl_nil]
    omega
  | case2 n _ ih =>
    rw [decimalValue_concat, ih, val_digit (by omega)]
    omega

theorem length_ofNat_le {n k : Nat} (small : n < Nat.pow 10 (k + 1)) :
    (ofNat n).length ≤ k + 1 := by
  induction k generalizing n with
  | zero =>
    unfold ofNat
    rw [if_pos (show n < 10 from small)]
    exact Nat.le_refl 1
  | succ k ih =>
    have front : n / 10 < Nat.pow 10 (k + 1) := by
      refine Nat.div_lt_of_lt_mul ?_
      rw [Nat.mul_comm]
      exact small
    unfold ofNat
    split
    · rw [List.length_singleton]
      omega
    · rw [List.length_append, List.length_singleton]
      exact Nat.succ_le_succ (ih front)

/-- Digits behind a number move it by their count of places. -/
theorem foldl_digits_lt {ds : Text} (digits : ∀ c ∈ ds, c.isDigit = true) (n : Nat) :
    ds.foldl (fun n c => n * 10 + (c.val - 0x30)) n < (n + 1) * Nat.pow 10 ds.length := by
  induction ds generalizing n with
  | nil => exact Nat.lt_of_lt_of_eq (Nat.lt_succ_self n) (Nat.mul_one _).symm
  | cons c ds ih =>
    obtain ⟨first, others⟩ := List.forall_mem_cons.1 digits
    rw [CodePoint.isDigit, Bool.and_eq_true, decide_eq_true_eq, decide_eq_true_eq] at first
    have step : n * 10 + (c.val - 0x30) + 1 ≤ (n + 1) * 10 := by omega
    calc List.foldl _ _ ds
      _ < (n * 10 + (c.val - 0x30) + 1) * Nat.pow 10 ds.length := ih others _
      _ ≤ (n + 1) * 10 * Nat.pow 10 ds.length := Nat.mul_le_mul_right _ step
      _ = (n + 1) * (Nat.pow 10 ds.length * 10) := by
        rw [Nat.mul_assoc, Nat.mul_comm 10]

theorem length_ofNat_decimalValue_le {ds : Text} (nonempty : ds ≠ [])
    (digits : ∀ c ∈ ds, c.isDigit = true) : (ofNat (decimalValue ds)).length ≤ ds.length := by
  have small := foldl_digits_lt digits 0
  rw [Nat.zero_add, Nat.one_mul] at small
  cases ds with
  | nil => exact absurd rfl nonempty
  | cons c ds => exact length_ofNat_le small

end Arabize.Text
