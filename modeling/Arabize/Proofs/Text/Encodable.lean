import Arabize.Proofs.Text.Utf8
import Arabize.Text.Blank

/-! # Texts made of texts with an encoding

Replacing, cutting and joining bring no surrogates in: what they make of texts that can be
encoded can be encoded.
-/

namespace Arabize.Text

open Utf8 (Encodable encodable_append encodable_cons encodable_nil)

theorem encodable_replaceFirst {t old new : Text} (text : Encodable t) (written : Encodable new) :
    Encodable (replaceFirst t old new) := by
  unfold replaceFirst
  split
  · rw [encodable_append, encodable_append]
    exact ⟨⟨text.of_subset (List.take_subset _ _), written⟩, text.of_subset (List.drop_subset _ _)⟩
  · exact text

theorem encodable_replaceAllFrom {t old new : Text} (written : Encodable new) (skip : Nat)
    (text : Encodable t) : Encodable (replaceAllFrom old new skip t) := by
  induction t generalizing skip with
  | nil => cases skip <;> exact encodable_nil
  | cons c t ih =>
    rw [encodable_cons] at text
    cases skip with
    | zero =>
      simp only [replaceAllFrom]
      split
      · exact encodable_append.2 ⟨written, ih _ text.2⟩
      · exact encodable_cons.2 ⟨text.1, ih _ text.2⟩
    | succ skip => exact ih _ text.2

theorem encodable_splitBlanksFrom {t : Text} (afterBlank : Bool) (text : Encodable t) :
    ∀ piece ∈ splitBlanksFrom afterBlank t, Encodable piece := by
  induction t generalizing afterBlank with
  | nil =>
    intro piece member
    rw [List.mem_singleton.1 member]
    exact encodable_nil
  | cons c t ih =>
    rw [encodable_cons] at text
    intro piece member
    simp only [splitBlanksFrom] at member
    split at member
    · split at member
      · exact ih _ text.2 piece member
      · rcases List.mem_cons.1 member with rfl | later
        · exact encodable_nil
        · exact ih _ text.2 piece later
    · split at member
      · rw [List.mem_singleton.1 member]
        exact encodable_cons.2 ⟨text.1, encodable_nil⟩
      next first rest split =>
        have pieces := ih false text.2
        rw [split] at pieces
        rcases List.mem_cons.1 member with rfl | later
        · exact encodable_cons.2 ⟨text.1, pieces first List.mem_cons_self⟩
        · exact pieces piece (List.mem_cons_of_mem _ later)

theorem encodable_intercalate {sep : Text} {pieces : List Text} (between : Encodable sep)
    (each : ∀ piece ∈ pieces, Encodable piece) : Encodable (intercalate sep pieces) := by
  fun_induction intercalate sep pieces with
  | case1 => exact encodable_nil
  | case2 t => exact each t List.mem_cons_self
  | case3 t u rest ih =>
    rw [encodable_append, encodable_append]
    exact ⟨⟨each t List.mem_cons_self, between⟩,
      ih fun piece member => each piece (List.mem_cons_of_mem _ member)⟩

theorem encodable_normalizeBreaksFrom {t : Text} (afterReturn : Bool) (text : Encodable t) :
    Encodable (normalizeBreaksFrom afterReturn t) := by
  have feed : (CodePoint.ofChar '\n').isSurrogate = false := Utf8.isSurrogate_ofChar '\n'
  induction t generalizing afterReturn with
  | nil => cases afterReturn <;> exact encodable_nil
  | cons c t ih =>
    rw [encodable_cons] at text
    simp only [normalizeBreaksFrom]
    split
    · exact encodable_cons.2 ⟨feed, ih _ text.2⟩
    · split
      · exact ih _ text.2
      · exact encodable_cons.2 ⟨text.1, ih _ text.2⟩

end Arabize.Text
