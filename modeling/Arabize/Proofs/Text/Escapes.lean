import Arabize.Proofs.Text.Utf8

/-! # The numbers in escapes

An escape gives a code point by the hexadecimal digits of its number.  Where there are only four
of them, a code point past the first plane is given by two numbers, which are the halves of its
surrogate pair; together they give it back (`joined_halves`).
-/

namespace Arabize

/-- Hexadecimal digits of either case that stand for a number, with any zeros before them. -/
def Text.Hexadecimal (digits : Text) (n : Nat) : Prop :=
  digits ≠ [] ∧ (digits.all fun d => d.hexValue?.isSome) = true ∧ Text.hexValue digits = n

namespace CodePoint

variable {c : CodePoint}

/-- The upper half of the surrogate pair of a code point past the first plane. -/
def upperHalf (c : CodePoint) : CodePoint := ofNat (0xD800 + (c.val - 0x10000) / 0x400)

/-- The lower half of that pair. -/
def lowerHalf (c : CodePoint) : CodePoint := ofNat (0xDC00 + (c.val - 0x10000) % 0x400)

theorem val_upperHalf (c : CodePoint) : c.upperHalf.val = 0xD800 + (c.val - 0x10000) / 0x400 := by
  have bound := c.isLt
  exact Nat.mod_eq_of_lt (by omega)

theorem val_lowerHalf (c : CodePoint) : c.lowerHalf.val = 0xDC00 + (c.val - 0x10000) % 0x400 :=
  Nat.mod_eq_of_lt (by omega)

theorem isHighSurrogate_upperHalf (c : CodePoint) : c.upperHalf.isHighSurrogate = true := by
  have bound := c.isLt
  simp only [isHighSurrogate, val_upperHalf, Bool.and_eq_true, decide_eq_true_eq]
  omega

theorem isLowSurrogate_lowerHalf (c : CodePoint) : c.lowerHalf.isLowSurrogate = true := by
  simp only [isLowSurrogate, val_lowerHalf, Bool.and_eq_true, decide_eq_true_eq]
  omega

theorem joined_halves (past : 0xFFFF < c.val) :
    0x10000 + (c.upperHalf.val - 0xD800) * 0x400 + (c.lowerHalf.val - 0xDC00) = c.val := by
  rw [val_upperHalf, val_lowerHalf]
  omega

end CodePoint

end Arabize
