import Arabize.Phrase.Translate
import Arabize.Proofs.Mapping

/-! # What a run remembers

A memory answers before a text is judged, so it must never hold what a judgement would
refuse.  `Sound` says that it does not: every text in it was written for people, and is
remembered with the translation that the lexicon gives, which differs from it.

With a sound memory, `translate` answers as with an empty one (`translate_sound`), and it
writes down exactly the texts that change (`find?_translate`), which keeps the memory sound.
-/

namespace Arabize.Phrase

variable {d : Lexicon} {memory : Memory}

/-- The answer for a text when nothing is remembered. -/
def answer (d : Lexicon) (t : Text) : Text := if isSafe d t then translation d t else t

/-- A memory that holds nothing but what the lexicon says of texts for people. -/
def Sound (d : Lexicon) (memory : Memory) : Prop :=
  ∀ t v, memory.find? t = some v → isSafe d t = true ∧ v = translation d t ∧ v ≠ t

theorem sound_nil (d : Lexicon) : Sound d [] := by
  intro t v found
  cases found

theorem isSafe_eq_false_of_isBlank {t : Text} (blank : Text.isBlank t = true) :
    isSafe d t = false := by
  cases t with
  | nil => rfl
  | cons c rest => simp only [isSafe, classify, blank, if_true, Rule.isSafe]

theorem answer_of_isSafe {t : Text} (safe : isSafe d t = true) : answer d t = translation d t :=
  if_pos safe

theorem answer_of_not_isSafe {t : Text} (unsafely : isSafe d t = false) : answer d t = t := by
  simp only [answer, unsafely, Bool.false_eq_true, if_false]

theorem answer_of_isBlank {t : Text} (blank : Text.isBlank t = true) : answer d t = t :=
  answer_of_not_isSafe (isSafe_eq_false_of_isBlank blank)

/-- A sound memory remembers answers, and of texts that change. -/
theorem Sound.find? (sound : Sound d memory) {t v : Text} (found : memory.find? t = some v) :
    v = answer d t ∧ answer d t ≠ t := by
  obtain ⟨safe, rfl, changed⟩ := sound t v found
  rw [answer_of_isSafe safe]
  exact ⟨rfl, changed⟩

/-- What a visit of a text does under a sound memory: it answers, and writes the answer down
    unless the text stays as it is or is remembered. -/
theorem translate_sound (sound : Sound d memory) (t : Text) :
    translate d t memory = (answer d t,
      if answer d t = t ∨ memory.has t = true then memory else memory.insert t (answer d t)) := by
  unfold translate
  by_cases blank : Text.isBlank t = true
  · rw [if_pos blank, answer_of_isBlank blank]
    simp only [true_or, if_true]
  · rw [if_neg blank]
    cases found : memory.find? t with
    | some v =>
      have remembered : memory.has t = true := by simp only [Mapping.has, found, Option.isSome]
      simp only [(sound.find? found).1, remembered, or_true, if_true]
    | none =>
      have unknown : memory.has t = false := by simp only [Mapping.has, found, Option.isSome]
      cases safe : isSafe d t with
      | false => simp [answer_of_not_isSafe safe]
      | true =>
        simp only [answer_of_isSafe safe, resolve, found, unknown, if_true]
        by_cases same : translation d t = t
        · simp only [same, if_true, true_or]
        · simp [same]

/-- Under a sound memory, visits answer as the lexicon does. -/
theorem fst_translate (sound : Sound d memory) :
    (fun t => (translate d t memory).1) = answer d :=
  funext fun t => congrArg Prod.fst (translate_sound sound t)

/-- After a visit, the text has its answer in the memory if it changes; all else is as it was. -/
theorem find?_translate (sound : Sound d memory) (t u : Text) :
    (translate d t memory).2.find? u =
      if t = u ∧ answer d t ≠ t then some (answer d t) else memory.find? u := by
  rw [translate_sound sound]
  by_cases same : answer d t = t
  · simp only [same, true_or, if_true, ne_eq, not_true_eq_false, and_false, if_false]
  · cases found : memory.find? t with
    | none => simp [same, Mapping.has, found, Mapping.find?_insert]
    | some v =>
      obtain ⟨rfl, changed⟩ := sound.find? found
      by_cases here : t = u
      · subst here
        simp [Mapping.has, found, changed]
      · simp [Mapping.has, found, here]

theorem Sound.translate (sound : Sound d memory) (t : Text) :
    Sound d (translate d t memory).2 := by
  intro u v found
  rw [find?_translate sound] at found
  split at found
  next written =>
    obtain ⟨rfl, changed⟩ := written
    cases found
    cases safe : isSafe d t with
    | true => exact ⟨rfl, answer_of_isSafe safe, changed⟩
    | false => exact absurd (answer_of_not_isSafe safe) changed
  next => exact sound u v found

/-! ## Visitors that answer -/

/-- A visitor whose answers depend on the text alone, from every state of some sort, which it
    keeps to. -/
def Answers {σ : Type} (good : σ → Prop) (visit : Text → StateM σ Text)
    (spell : Text → Text) : Prop :=
  ∀ t s, good s → (visit t s).1 = spell t ∧ good (visit t s).2

theorem translate_answers (d : Lexicon) : Answers (Sound d) (translate d) (answer d) :=
  fun t _ sound => ⟨by rw [translate_sound sound], sound.translate t⟩

theorem translateCounting_answers (d : Lexicon) :
    Answers (fun p => Sound d p.memory) (translateCounting d) (answer d) :=
  fun t p sound => translate_answers d t p.memory sound

/-! ## Memories that runs reach -/

/-- The memories that visits make of an empty one. -/
inductive Reachable (d : Lexicon) : Memory → Prop
  | empty : Reachable d []
  | visit {memory : Memory} (t : Text) :
      Reachable d memory → Reachable d (translate d t memory).2

theorem Reachable.sound (reachable : Reachable d memory) : Sound d memory := by
  induction reachable with
  | empty => exact sound_nil d
  | visit t _ ih => exact ih.translate t

end Arabize.Phrase
