import Arabize.Lexicon.Basic
import Arabize.Proofs.Mapping
import Mathlib.Data.List.Induction

/-! # What tiers of lexicons know

Tiers are joined before anything is looked up in them, so the last tier that holds a text decides,
be its entry empty or not.  That an empty entry counts as absent is seen only when an entry is looked
up, and by then it has taken the place of a translation in an earlier tier: the text is `Hidden`.

So a text has the last translation that the tiers have for it exactly if it is not hidden
(`entry?_merge_eq_iff`), and the same goes for its lower-case form, which is looked up next
(`lookup_tiers`).
-/

namespace Arabize.Lexicon

variable {tiers : List (Option Lexicon)} {t : Text}

/-- What the last tier that holds a text has for it; the entry may be empty. -/
def lastValue? (tiers : List (Option Lexicon)) (t : Text) : Option Text :=
  tiers.reverse.findSome? fun tier => (tier.getD []).find? t

/-- The translation of a text in the last tier that has one. -/
def lastTranslation? (tiers : List (Option Lexicon)) (t : Text) : Option Text :=
  tiers.reverse.findSome? fun tier => Lexicon.entry? (tier.getD []) t

/-- A text has a translation, but the last tier that holds it has an empty entry. -/
def Hidden (tiers : List (Option Lexicon)) (t : Text) : Prop :=
  lastValue? tiers t = some [] ∧ ∃ v, lastTranslation? tiers t = some v

/-- No tier holds a text twice. -/
def WellKeyed (tiers : List (Option Lexicon)) : Prop :=
  ∀ d, some d ∈ tiers → (Mapping.keys d).Nodup

/-! ## One tier more -/

theorem lastValue?_concat (tiers : List (Option Lexicon)) (tier : Option Lexicon) (t : Text) :
    lastValue? (tiers ++ [tier]) t = ((tier.getD []).find? t).or (lastValue? tiers t) := by
  rw [lastValue?, List.reverse_append, List.reverse_singleton, List.singleton_append,
    List.findSome?_cons]
  cases (tier.getD []).find? t <;> rfl

theorem lastTranslation?_concat (tiers : List (Option Lexicon)) (tier : Option Lexicon)
    (t : Text) : lastTranslation? (tiers ++ [tier]) t =
      ( Lexicon.entry? (tier.getD []) t).or (lastTranslation? tiers t) := by
  rw [lastTranslation?, List.reverse_append, List.reverse_singleton, List.singleton_append,
    List.findSome?_cons]
  cases Lexicon.entry? (tier.getD []) t <;> rfl

theorem merge_concat (tiers : List (Option Lexicon)) (tier : Option Lexicon) :
    merge (tiers ++ [tier]) = (merge tiers).update (tier.getD []) := by
  rw [merge, List.foldl_append]
  rfl

/-! ## What is found -/

/-- Joined tiers have for a text what the last one that holds it has. -/
theorem find?_merge (keyed : WellKeyed tiers) (t : Text) :
    (merge tiers).find? t = lastValue? tiers t := by
  induction tiers using List.reverseRecOn with
  | nil => rfl
  | append_singleton tiers tier ih =>
    have nodup : (Mapping.keys (tier.getD [])).Nodup := by
      cases tier with
      | none => exact .nil
      | some d => exact keyed d (by simp)
    rw [merge_concat, lastValue?_concat, Mapping.find?_update nodup,
      ih fun d member => keyed d (List.mem_append_left _ member)]

theorem entry?_merge (keyed : WellKeyed tiers) (t : Text) :
    Lexicon.entry? (merge tiers) t = (lastValue? tiers t).filter fun v => !v.isEmpty := by
  unfold Lexicon.entry?
  rw [find?_merge keyed]

/-- A text is in no tier, or its last entry is empty, or this is its translation. -/
theorem lastValue?_cases (tiers : List (Option Lexicon)) (t : Text) :
    (lastValue? tiers t = none ∧ lastTranslation? tiers t = none) ∨
      lastValue? tiers t = some [] ∨
      ∃ v, v ≠ [] ∧ lastValue? tiers t = some v ∧ lastTranslation? tiers t = some v := by
  induction tiers using List.reverseRecOn with
  | nil => exact .inl ⟨rfl, rfl⟩
  | append_singleton tiers tier ih =>
    rw [lastValue?_concat, lastTranslation?_concat, entry?]
    cases (tier.getD []).find? t with
    | none => exact ih
    | some v =>
      by_cases empty : v = []
      · exact .inr (.inl (by rw [empty]; rfl))
      · exact .inr (.inr ⟨v, empty, rfl, by simp [empty]⟩)

/-- A hidden text has no translation among joined tiers. -/
theorem Hidden.entry?_merge (hidden : Hidden tiers t) (keyed : WellKeyed tiers) :
    Lexicon.entry? (merge tiers) t = none := by
  rw [Lexicon.entry?_merge keyed, hidden.1]
  rfl

/-- Joined tiers have the last translation of a text unless it is hidden. -/
theorem entry?_merge_eq_iff (keyed : WellKeyed tiers) (t : Text) :
    Lexicon.entry? (merge tiers) t = lastTranslation? tiers t ↔ ¬ Hidden tiers t := by
  constructor
  · rintro same hidden
    obtain ⟨v, translated⟩ := hidden.2
    rw [hidden.entry?_merge keyed, translated] at same
    cases same
  · intro shown
    rw [entry?_merge keyed]
    rcases lastValue?_cases tiers t with ⟨absent, unlisted⟩ | empty | ⟨v, filled, last, same⟩
    · rw [absent, unlisted]
      rfl
    · cases found : lastTranslation? tiers t with
      | none =>
        rw [empty]
        rfl
      | some v => exact absurd ⟨empty, v, found⟩ shown
    · simp [last, same, filled]

/-- What is found for a text in joined tiers is its entry in the last tier that holds it, unless
    this is empty, or else that of its lower-case form.  It is the last translation that the tiers
    have for the text, or else for its lower-case form, exactly if neither is hidden where it would
    be found; or else the lower-case form of a hidden text has the very translation that is hidden. -/
theorem lookup_tiers (keyed : WellKeyed tiers) (t : Text) :
    (merge tiers).lookup? t =
      ((lastValue? tiers t).filter fun v => !v.isEmpty).or
        ((lastValue? tiers t.lower).filter fun v => !v.isEmpty) ∧
    ((merge tiers).lookup? t = (lastTranslation? tiers t).or (lastTranslation? tiers t.lower) ↔
      (Hidden tiers t → Lexicon.entry? (merge tiers) t.lower = lastTranslation? tiers t) ∧
        (lastTranslation? tiers t = none → ¬ Hidden tiers t.lower)) := by
  refine ⟨by rw [lookup?, entry?_merge keyed, entry?_merge keyed], ?_⟩
  rw [lookup?, ← entry?_merge_eq_iff keyed t.lower]
  by_cases hidden : Hidden tiers t
  · -- The lower-case form is all that is left to be found.
    obtain ⟨v, translated⟩ := hidden.2
    simp [hidden.entry?_merge keyed, hidden, translated]
  · rw [(entry?_merge_eq_iff keyed t).2 hidden]
    cases lastTranslation? tiers t <;> simp [hidden]

/-- A placeholder in a later tier hides the translation of an earlier one. -/
theorem lookup_tiers_placeholder :
    let tiers : List (Option Lexicon) := [some [("Hello", "X")], none, some [("Hello", "")]]
    WellKeyed tiers ∧ lastTranslation? tiers "Hello" = some "X" ∧
      (merge tiers).lookup? "Hello" = none := by
  intro tiers
  have keyed : WellKeyed tiers := by
    intro d member
    simp only [tiers, List.mem_cons, Option.some.injEq, List.not_mem_nil, or_false, reduceCtorEq,
      false_or] at member
    rcases member with rfl | rfl <;> decide
  refine ⟨keyed, by decide, ?_⟩
  rw [(lookup_tiers keyed "Hello").1]
  cbv

end Arabize.Lexicon
