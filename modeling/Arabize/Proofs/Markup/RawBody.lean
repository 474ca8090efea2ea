import Arabize.Markup.RawBody
import Arabize.Proofs.Text.Lower

/-! # Where a body is seen

Whether an offset lies in a script or style body is asked of the lower-case form of a page, but
in offsets of the page itself.  The answer is right for an offset that no dotted capital `i`
stands before.  Each one that does makes the lower-case form longer, so that the tags of a shorter
beginning of the page are compared: of what fits into the offset (`insideRawBody_iff`).
-/

namespace Arabize.Markup

open CodePoint (dottedI)
open Text (LastAt LastIn Occurs Sought fitting lowerLength)

/-- An offset of a page lies in a body: of the tags of an element that stand wholly before it,
    letter case aside, the last opening one stands behind the last closing one, or there is no
    closing one. -/
def InsideBody (content : Text) (offset : Nat) : Prop :=
  ∃ name ∈ codeElements, ∃ i, LastAt ('<' :: name) content offset i ∧
    ∀ j, LastAt ("</" ++ name ++ ">") content offset j → j < i

/-- The tags of these elements are not mistaken for parts of other letters. -/
theorem sought_of_mem_codeElements : ∀ name ∈ codeElements,
    Sought ('<' :: name) ∧ Sought ("</" ++ name ++ ">") := by
  decide

/-- The comparison of the last tags before an offset, as a fact about their places. -/
theorem insideElement_iff {lowered name : Text} {offset : Nat} :
    insideElement lowered offset name = true ↔
      ∃ i, LastIn ('<' :: name) (lowered.take offset) i ∧
        ∀ j, LastIn ("</" ++ name ++ ">") (lowered.take offset) j → j < i := by
  have opening : CodePoint.ofChar '<' :: name ≠ [] := List.cons_ne_nil _ _
  have closing : ("</" ++ name ++ ">" : Text) ≠ [] :=
    List.append_ne_nil_of_right_ne_nil _ (by decide)
  simp only [insideElement]
  rcases Text.findLast?_cases opening (lowered.take offset) with
    ⟨absent, nowhere⟩ | ⟨opened, found, last⟩
  · rw [absent]
    refine iff_of_false Bool.false_ne_true ?_
    rintro ⟨i, ⟨here, _⟩, _⟩
    rw [nowhere] at here
    cases here
  · rw [found]
    rcases Text.findLast?_cases closing (lowered.take offset) with
      ⟨absent, nowhere⟩ | ⟨closed, foundClosing, lastClosing⟩
    · rw [absent]
      refine iff_of_true rfl ⟨opened, last, fun j ⟨here, _⟩ => ?_⟩
      rw [nowhere] at here
      cases here
    · rw [foundClosing]
      simp only [decide_eq_true_eq]
      constructor
      · exact fun before => ⟨opened, last, fun j also => also.unique lastClosing ▸ before⟩
      · rintro ⟨i, also, behind⟩
        exact also.unique last ▸ behind closed lastClosing

/-- The tags that are compared are those of the page that fit into the offset. -/
theorem insideRawBody_lower_iff (content : Text) (offset : Nat) :
    insideRawBody content.lower offset = true ↔ InsideBody content (fitting offset content) := by
  rw [insideRawBody, List.any_eq_true]
  refine exists_congr fun name => and_congr_right fun member => ?_
  obtain ⟨opening, closing⟩ := sought_of_mem_codeElements name member
  rw [insideElement_iff]
  simp only [Text.lastIn_take_lower_iff opening, Text.lastIn_take_lower_iff closing]
  -- Both sides compare the same two places, counted in the lower-case form and in the page.
  have inside : ∀ {needle : Text} {i}, LastAt needle content (fitting offset content) i →
      i ≤ content.length := fun last =>
    (Nat.le_add_right _ _).trans (last.1.2.trans (Text.le_fitting_iff.1 (Nat.le_refl _)).1)
  constructor
  · rintro ⟨_, ⟨i, rfl, last⟩, before⟩
    refine ⟨i, last, fun j lastClosing => Nat.lt_of_not_le fun behind => ?_⟩
    exact absurd (before _ ⟨j, rfl, lastClosing⟩)
      (Nat.not_lt.2 (Text.lowerLength_take_le behind (inside lastClosing)))
  · rintro ⟨i, last, before⟩
    refine ⟨_, ⟨i, rfl, last⟩, ?_⟩
    rintro _ ⟨j, rfl, lastClosing⟩
    exact Text.lowerLength_take_lt (before j lastClosing) (inside last)

/-- Without a dotted capital `i` before an offset the tags are those that stand before it. -/
theorem insideBody_fitting_iff {content : Text} {offset : Nat}
    (single : dottedI ∉ content.take offset) :
    InsideBody content (fitting offset content) ↔ InsideBody content offset := by
  have same : ∀ {needle : Text}, Sought needle → ∀ i,
      LastAt needle content (fitting offset content) i ↔ LastAt needle content offset i := by
    intro needle sought
    have occurs : ∀ i,
        Occurs needle content (fitting offset content) i ↔ Occurs needle content offset i := by
      refine fun i => and_congr_right fun found => ?_
      -- A tag that is found lies in the page, so what is left to compare is the offset.
      have long := (Text.lowerLength_of_beginsWith sought.plain found).1
      have filled : 0 < needle.length := List.length_pos_iff.2 sought.nonempty
      rw [List.length_drop] at long
      rw [Text.le_fitting_of_not_mem single]
      exact and_iff_right (by omega)
    exact fun i => and_congr (occurs i) (forall_congr' fun k => by rw [occurs k])
  refine exists_congr fun name => and_congr_right fun member => exists_congr fun i => ?_
  obtain ⟨opening, closing⟩ := sought_of_mem_codeElements name member
  exact and_congr (same opening i) (forall_congr' fun j => by rw [same closing j])

/-- An offset is said to lie in a body exactly if what fits into it ends in one: the longest
    beginning of the page whose code points, the dotted capital `i` among them counted twice, are
    no more than the offset.  It is the beginning up to the offset unless there is such a letter
    in it. -/
theorem insideRawBody_iff (content : Text) (offset : Nat) :
    (insideRawBody content.lower offset = true ↔ InsideBody content (fitting offset content)) ∧
    (∀ k, k ≤ fitting offset content ↔
      k ≤ content.length ∧ k + (content.take k).count dottedI ≤ offset) ∧
    (dottedI ∉ content.take offset →
      (insideRawBody content.lower offset = true ↔ InsideBody content offset)) := by
  refine ⟨insideRawBody_lower_iff content offset, fun k => ?_, fun single => ?_⟩
  · rw [Text.le_fitting_iff]
    refine and_congr_right fun inside => ?_
    rw [lowerLength, List.length_take, Nat.min_eq_left inside]
  · rw [insideRawBody_lower_iff, insideBody_fitting_iff single]

/-- A script behind a dotted capital `i`. -/
def dottedPage : Text := "\u0130<script>"

/-- The opening tag before the offset is not seen: it is seen one code point later. -/
theorem insideRawBody_dottedPage :
    InsideBody dottedPage 8 ∧ insideRawBody dottedPage.lower 8 = false := by
  obtain ⟨seen, fits, _⟩ := insideRawBody_iff dottedPage 9
  have whole : fitting 9 dottedPage = 8 := by
    refine Nat.le_antisymm (Nat.le_of_lt_succ (Nat.lt_of_not_le fun more => ?_))
      ((fits 8).2 (by decide))
    exact absurd ((fits 9).1 more).2 (by decide)
  rw [whole] at seen
  exact ⟨seen.1 (by decide), by decide⟩

end Arabize.Markup
