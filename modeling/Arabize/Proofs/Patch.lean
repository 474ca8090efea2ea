import Arabize.Mapping

/-! # Patches

A patch is a stretch of a list and what comes in its place.  `weave` reads the patched list
off from left to right: each stretch is replaced, and every item between them is kept.
Stretches that lie in a row leave it nothing to choose.
-/

namespace Arabize

/-- A stretch of a list and what is to stand in its place. -/
structure Patch (α : Type) where
  /-- The offset of the first item to go. -/
  start : Nat
  /-- The offset behind the last item to go. -/
  stop : Nat
  /-- What comes in their place. -/
  new : List α
  deriving DecidableEq

variable {α : Type}

/-- A list from an offset on, with the stretches of some patches, in their order, replaced. -/
def weave (source : List α) : Nat → List (Patch α) → List α
  | n, [] => source.drop n
  | n, p :: rest => (source.drop n).take (p.start - n) ++ p.new ++ weave source p.stop rest

/-- Whether the stretches of some patches follow one another in a list, from an offset on. -/
def InRow (source : List α) : Nat → List (Patch α) → Prop
  | n, [] => n ≤ source.length
  | n, p :: rest => n ≤ p.start ∧ p.start < p.stop ∧ InRow source p.stop rest

variable {source : List α} {n : Nat} {patches : List (Patch α)}

theorem InRow.le_length (row : InRow source n patches) : n ≤ source.length := by
  induction patches generalizing n with
  | nil => exact row
  | cons p rest ih =>
    obtain ⟨before, nonempty, behind⟩ := row
    have := ih behind
    omega

theorem InRow.le_start (row : InRow source n patches) {p : Patch α} (member : p ∈ patches) :
    n ≤ p.start := by
  induction patches generalizing n with
  | nil => cases member
  | cons first rest ih =>
    obtain ⟨before, nonempty, behind⟩ := row
    rcases List.mem_cons.1 member with rfl | later
    · exact before
    · have := ih behind later
      omega

/-- Stretches that end before the next one starts are in a row. -/
theorem inRow_of_pairwise (fits : n ≤ source.length) (from_n : ∀ p ∈ patches, n ≤ p.start)
    (within : ∀ p ∈ patches, p.start < p.stop ∧ p.stop ≤ source.length)
    (apart : patches.Pairwise fun a b => a.stop ≤ b.start) : InRow source n patches := by
  induction patches generalizing n with
  | nil => exact fits
  | cons p rest ih =>
    rw [List.pairwise_cons] at apart
    obtain ⟨nonempty, inside⟩ := within p List.mem_cons_self
    exact ⟨from_n p List.mem_cons_self, nonempty, ih inside apart.1
      (fun q member => within q (List.mem_cons_of_mem _ member)) apart.2⟩

end Arabize
