import Arabize.Phrase.Translate
import Arabize.Proofs.Text.Search

/-! # Words in punctuation

A word that a lexicon does not know is looked up once more without its punctuation.  What is then
known stands in the word at one place at most, with nothing but punctuation around it
(`eq_takeWhile_of_split`), so that the translation can be put in its place and the punctuation
kept (`translateWord_wrapped`).  A word with punctuation inside holds its own core nowhere, and
stays as it is.
-/

namespace Arabize.Phrase

variable {d : Lexicon} {w before after : Text}

/-! ## The core of a word -/

theorem not_isPunctuation_of_mem {c : CodePoint} (member : c ∈ withoutPunctuation w) :
    isPunctuation c = false := by
  simpa [withoutPunctuation] using (List.mem_filter.1 member).2

/-- What stands around the core of a word is punctuation: the core holds all that is none. -/
theorem isPunctuation_of_split (split : w = before ++ withoutPunctuation w ++ after) :
    ∀ c ∈ before ++ after, isPunctuation c = true := by
  have core : withoutPunctuation (withoutPunctuation w) = withoutPunctuation w := by
    simp [withoutPunctuation, List.filter_filter]
  have parts : withoutPunctuation (before ++ withoutPunctuation w ++ after) =
      withoutPunctuation before ++ withoutPunctuation w ++ withoutPunctuation after := by
    simp only [withoutPunctuation, List.filter_append] at core ⊢
    rw [core]
  rw [← split] at parts
  -- The core is as long as itself, so that nothing is left for the two parts around it.
  have lengths := congrArg List.length parts
  simp only [List.length_append] at lengths
  have nothing : withoutPunctuation before = [] ∧ withoutPunctuation after = [] := by
    constructor <;> apply List.eq_nil_of_length_eq_zero <;> omega
  intro c member
  rcases List.mem_append.1 member with front | back
  · simpa using List.filter_eq_nil_iff.1 nothing.1 c front
  · simpa using List.filter_eq_nil_iff.1 nothing.2 c back

/-- Where a core that is not empty stands: behind the punctuation that the word begins with. -/
theorem eq_takeWhile_of_split (filled : withoutPunctuation w ≠ [])
    (split : w = before ++ withoutPunctuation w ++ after) :
    before = w.takeWhile isPunctuation := by
  obtain ⟨c, core, isCore⟩ := List.exists_cons_of_ne_nil filled
  have visible : isPunctuation c = false := by
    apply not_isPunctuation_of_mem (w := w)
    rw [isCore]
    exact List.mem_cons_self
  have front : ∀ e ∈ before, isPunctuation e = true := fun e member =>
    isPunctuation_of_split split e (List.mem_append_left _ member)
  rw [split, isCore, List.append_assoc, List.takeWhile_append_of_pos front, List.cons_append,
    List.takeWhile_cons_of_neg (by simp [visible]), List.append_nil]

theorem split_unique (filled : withoutPunctuation w ≠ [])
    (split : w = before ++ withoutPunctuation w ++ after) {front back : Text}
    (also : w = front ++ withoutPunctuation w ++ back) : front = before ∧ back = after := by
  obtain rfl : front = before :=
    (eq_takeWhile_of_split filled also).trans (eq_takeWhile_of_split filled split).symm
  exact ⟨rfl, List.append_cancel_left (also.symm.trans split)⟩

/-! ## The fallback -/

/-- A word is known by its core: what is left without its punctuation is less than the word, has a
    translation, and stands in the word as a whole. -/
structure KnownWithin (d : Lexicon) (w before translated after : Text) : Prop where
  nonempty : withoutPunctuation w ≠ []
  shorter : withoutPunctuation w ≠ w
  known : d.lookup? (withoutPunctuation w) = some translated
  split : w = before ++ withoutPunctuation w ++ after

/-- A word that is not known itself is looked up by its core; unless the core is known and stands
    in it, it is not changed. -/
theorem translateWord_cases (unknown : d.lookup? w = none) :
    (∃ before translated after, KnownWithin d w before translated after ∧
        translateWord d w = before ++ translated ++ after) ∨
      ((¬ ∃ before translated after, KnownWithin d w before translated after) ∧
        translateWord d w = w) := by
  by_cases bare : withoutPunctuation w = [] ∨ withoutPunctuation w = w
  · refine .inr ⟨?_, by simp [translateWord, unknown, bare]⟩
    rintro ⟨before, translated, after, within⟩
    exact bare.elim within.nonempty within.shorter
  cases found : d.lookup? (withoutPunctuation w) with
  | none =>
    refine .inr ⟨?_, by simp [translateWord, unknown, found]⟩
    rintro ⟨before, translated, after, within⟩
    rw [within.known] at found
    cases found
  | some translated =>
    have replaced : translateWord d w = Text.replaceFirst w (withoutPunctuation w) translated := by
      simp [translateWord, unknown, bare, found]
    rw [replaced]
    rw [not_or] at bare
    rcases Text.replaceFirst_cases w (withoutPunctuation w) translated with
      ⟨before, after, split, result⟩ | ⟨absent, result⟩
    · exact .inl ⟨before, translated, after, ⟨bare.1, bare.2, found, split⟩, result⟩
    · refine .inr ⟨?_, result⟩
      rintro ⟨before, other, after, within⟩
      exact absent ⟨before, after, within.split.symm⟩

/-- The punctuation around the core of a word is kept exactly.  Where a word that is not known is
    known by its core, what stands around the core is determined and nothing but punctuation, and
    the translation of the word is that of the core between the two; any other word that is not
    known stays as it is. -/
theorem translateWord_wrapped (unknown : d.lookup? w = none) :
    (∀ before translated after, KnownWithin d w before translated after →
      translateWord d w = before ++ translated ++ after ∧
      (∀ c ∈ before ++ after, isPunctuation c = true) ∧
      ∀ front back, w = front ++ withoutPunctuation w ++ back → front = before ∧ back = after) ∧
    ((¬ ∃ before translated after, KnownWithin d w before translated after) →
      translateWord d w = w) := by
  constructor
  · intro before translated after within
    have unique : ∀ {front back}, w = front ++ withoutPunctuation w ++ back →
        front = before ∧ back = after :=
      split_unique within.nonempty within.split
    refine ⟨?_, isPunctuation_of_split within.split, fun _ _ also => unique also⟩
    rcases translateWord_cases unknown with ⟨front, other, back, also, result⟩ | ⟨never, _⟩
    · obtain ⟨rfl, rfl⟩ := unique also.split
      have same := also.known.symm.trans within.known
      cases same
      exact result
    · exact absurd ⟨_, _, _, within⟩ never
  · intro never
    rcases translateWord_cases unknown with ⟨_, _, _, within, _⟩ | ⟨_, result⟩
    · exact absurd ⟨_, _, _, within⟩ never
    · exact result

/-- A greeting in brackets, and a word with an apostrophe inside. -/
theorem translateWord_greeting :
    let d : Lexicon := [("hello", "X"), ("dont", "Y")]
    d.lookup? "(Hello)," = none ∧ translateWord d "(Hello)," = Text.ofString "(X)," ∧
      d.lookup? "don't!" = none ∧ translateWord d "don't!" = Text.ofString "don't!" := by
  intro d
  have greeting : d.lookup? "(Hello)," = none := by decide
  have contracted : d.lookup? "don't!" = none := by decide
  have within : KnownWithin d "(Hello)," "(" "X" ")," :=
    ⟨by decide, by decide, by decide, by decide⟩
  refine ⟨greeting, ((translateWord_wrapped greeting).1 _ _ _ within).1.trans (by decide),
    contracted, (translateWord_wrapped contracted).2 ?_⟩
  rintro ⟨before, translated, after, inner⟩
  have held : withoutPunctuation "don't!" <:+: Text.ofString "don't!" :=
    ⟨before, after, inner.split.symm⟩
  rw [← Text.occursIn_iff] at held
  revert held
  decide

end Arabize.Phrase
