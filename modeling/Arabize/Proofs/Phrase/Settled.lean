import Arabize.Lexicon.Bundled
import Arabize.Proofs.Phrase.Memory
import Arabize.Proofs.Phrase.Words
import Arabize.Proofs.Text.Lower
import Arabize.Proofs.Text.Words
import Mathlib.Data.Set.Defs

/-! # Translations that stay

Later passes over a document meet the texts that earlier ones have translated, so a translation
should not be translated again.  It is not where the two languages have letters of their own: if
every word of a translation holds a letter that no key of the lexicon holds, then none of them is
found (`translateWord_of_holds`), whether as it is, in lower case or without its punctuation.  A
text is settled if all of its words stay as they are, and what comes out of a translation is
(`settled_wordByWord`), so that a second one changes nothing (`translate_settles`).
-/

namespace Arabize.Phrase

open Text (splitBlanks intercalate EndsVisible)

variable {letters : Set CodePoint} {d : Lexicon} {memory : Memory} {t w value : Text}

/-- The letters keep the translations of a lexicon apart from what it translates.  They are no
    blanks and no punctuation, and lower case keeps them; no key holds one, and every word of a
    translation does.  Keys without a translation do not count. -/
structure Apart (letters : Set CodePoint) (d : Lexicon) : Prop where
  visible : ∀ c ∈ letters, c.isBlank = false
  unstripped : ∀ c ∈ letters, isPunctuation c = false
  kept : ∀ (t : Text), ∀ c ∈ letters, c ∈ t → c ∈ t.lower
  foreign : ∀ key value, d.entry? key = some value → ∀ c ∈ key, c ∉ letters
  tight : ∀ key value, d.entry? key = some value → Text.strip value = value
  native : ∀ key value, d.entry? key = some value →
    ∀ piece ∈ splitBlanks value, piece ≠ [] → ∃ c ∈ piece, c ∈ letters

/-- Whether a text holds one of the letters. -/
def Holds (letters : Set CodePoint) (t : Text) : Prop := ∃ c ∈ t, c ∈ letters

theorem Holds.mono {u : Text} (holds : Holds letters t) (within : t ⊆ u) : Holds letters u := by
  obtain ⟨c, member, letter⟩ := holds
  exact ⟨c, within member, letter⟩

/-! ## What is found -/

theorem entry?_ne_nil (found : d.entry? t = some value) : value ≠ [] := by
  have full := (Option.filter_eq_some_iff.1 found).2
  simpa using full

theorem exists_entry?_of_lookup? (found : d.lookup? t = some value) :
    ∃ key, d.entry? key = some value := by
  rcases Option.or_eq_some_iff.1 found with exact | ⟨_, lower⟩
  · exact ⟨t, exact⟩
  · exact ⟨t.lower, lower⟩

namespace Apart

/-- A text with one of the letters is no key, and neither is its lower-case form. -/
theorem lookup?_of_holds (apart : Apart letters d) (holds : Holds letters t) :
    d.lookup? t = none := by
  obtain ⟨c, member, letter⟩ := holds
  have unknown : ∀ key, c ∈ key → d.entry? key = none := by
    intro key held
    cases found : d.entry? key with
    | none => rfl
    | some value => exact absurd letter (apart.foreign key value found c held)
  rw [Lexicon.lookup?, unknown t member, unknown t.lower (apart.kept t c letter member)]
  rfl

/-- Every word of a translation holds one of the letters. -/
theorem holds_of_mem_splitBlanks (apart : Apart letters d) (found : d.lookup? t = some value) :
    ∀ piece ∈ splitBlanks value, Holds letters piece := by
  obtain ⟨key, entry⟩ := exists_entry?_of_lookup? found
  intro piece member
  apply apart.native key value entry piece member
  rintro rfl
  exact Text.nil_not_mem_splitBlanks (entry?_ne_nil entry) (apart.tight key value entry) member

/-- A word with one of the letters stays as it is: without its punctuation it still holds it. -/
theorem translateWord_of_holds (apart : Apart letters d) (holds : Holds letters w) :
    translateWord d w = w := by
  have core : Holds letters (withoutPunctuation w) := by
    obtain ⟨c, member, letter⟩ := holds
    refine ⟨c, List.mem_filter.2 ⟨member, ?_⟩, letter⟩
    simp [apart.unstripped c letter]
  apply (translateWord_wrapped (apart.lookup?_of_holds holds)).2
  rintro ⟨before, translated, after, within⟩
  have unknown := within.known
  rw [apart.lookup?_of_holds core] at unknown
  cases unknown

end Apart

/-! ## Settled texts -/

/-- Whether every word of a text stays as it is. -/
def Settled (d : Lexicon) (t : Text) : Prop :=
  ∀ piece ∈ splitBlanks t, translateWord d piece = piece

theorem Settled.wordByWord (settled : Settled d t) : wordByWord d t = t := by
  have same : (splitBlanks t).map (translateWord d) = splitBlanks t := by
    rw [List.map_congr_left settled, List.map_id']
  simp [Phrase.wordByWord, same]

/-- A text that is settled and not known as a whole is its own translation. -/
theorem Settled.translation (settled : Settled d t) (unknown : d.lookup? t = none) :
    translation d t = t := by
  rw [Phrase.translation, unknown, Option.getD_none, settled.wordByWord]

namespace Apart

theorem settled_of_holds (apart : Apart letters d)
    (holds : ∀ piece ∈ splitBlanks t, Holds letters piece) : Settled d t :=
  fun piece member => apart.translateWord_of_holds (holds piece member)

/-- What becomes of a word: it stays, or every word of what it becomes holds one of the letters.
    Nothing of this ends with a blank. -/
theorem translateWord_apart (apart : Apart letters d) (visible : ∀ c ∈ w, c.isBlank = false) :
    EndsVisible (translateWord d w) ∧ (translateWord d w = w ∨
      ∀ piece ∈ splitBlanks (translateWord d w), Holds letters piece) := by
  -- A translation ends without a blank.
  have ends : ∀ {t value}, d.lookup? t = some value → EndsVisible value := by
    intro t value found
    obtain ⟨key, entry⟩ := exists_entry?_of_lookup? found
    exact Text.endsVisible_of_strip (apart.tight key value entry)
  cases found : d.lookup? w with
  | some value =>
    have result : translateWord d w = value := by simp [translateWord, found]
    rw [result]
    exact ⟨ends found, .inr (apart.holds_of_mem_splitBlanks found)⟩
  | none =>
    rcases translateWord_cases found with ⟨before, translated, after, within, result⟩ | ⟨_, result⟩
    · -- The punctuation around the core is part of the word, so it holds no blanks.
      have front : ∀ c ∈ before, c.isBlank = false := fun c member =>
        visible c (by rw [within.split]; simp [member])
      have back : ∀ c ∈ after, c.isBlank = false := fun c member =>
        visible c (by rw [within.split]; simp [member])
      rw [result]
      constructor
      · apply EndsVisible.append _ (Text.endsVisible_of_not_blank back)
        exact (Text.endsVisible_of_not_blank front).append (ends within.known)
      · refine .inr fun piece member => ?_
        obtain ⟨inner, isWord, held⟩ := Text.exists_of_mem_splitBlanks_between front back member
        exact (apart.holds_of_mem_splitBlanks within.known inner isWord).mono held
    · rw [result]
      exact ⟨Text.endsVisible_of_not_blank visible, .inl rfl⟩

theorem settled_translateWord (apart : Apart letters d) (visible : ∀ c ∈ w, c.isBlank = false) :
    Settled d (translateWord d w) := by
  rcases (apart.translateWord_apart visible).2 with same | holds
  · intro piece member
    rw [same, Text.splitBlanks_of_visible visible, List.mem_singleton] at member
    rw [member, same]
  · exact apart.settled_of_holds holds

/-- What comes out of a translation word by word that changes something is settled, and it is not
    known as a whole. -/
theorem settled_wordByWord (apart : Apart letters d) (changed : wordByWord d t ≠ t) :
    Settled d (wordByWord d t) ∧ d.lookup? (wordByWord d t) = none := by
  have visible : ∀ word ∈ splitBlanks t, ∀ c ∈ word, c.isBlank = false :=
    fun word member => (Text.word_of_mem_splitBlanksFrom member).2
  have other : (splitBlanks t).map (translateWord d) ≠ splitBlanks t := by
    intro same
    exact changed (by simp [wordByWord, same])
  have joined : wordByWord d t =
      intercalate [CodePoint.ofChar ' '] ((splitBlanks t).map (translateWord d)) := by
    simp [wordByWord, other, Text.ofString]
  rw [joined]
  constructor
  · have filled : (splitBlanks t).map (translateWord d) ≠ [] := by
      rw [ne_eq, List.map_eq_nil_iff]
      exact Text.splitBlanksFrom_ne_nil false t
    have ends : ∀ u ∈ (splitBlanks t).map (translateWord d), EndsVisible u := by
      intro u isText
      obtain ⟨word, isWord, rfl⟩ := List.mem_map.1 isText
      exact (apart.translateWord_apart (visible word isWord)).1
    intro piece member
    obtain ⟨u, isText, held⟩ := Text.mem_splitBlanks_intercalate (by decide) filled ends member
    obtain ⟨word, isWord, rfl⟩ := List.mem_map.1 isText
    exact apart.settled_translateWord (visible word isWord) piece held
  · -- Some word changes, so it brings one of the letters in.
    have notAll : ¬ ∀ word ∈ splitBlanks t, translateWord d word = word := fun all =>
      other (by rw [List.map_congr_left all, List.map_id'])
    obtain ⟨word, isWord, changes⟩ : ∃ word ∈ splitBlanks t, translateWord d word ≠ word := by
      simpa using notAll
    have holds := (apart.translateWord_apart (visible word isWord)).2.resolve_left changes
    obtain ⟨first, rest, words⟩ := Text.exists_splitBlanksFrom false (translateWord d word)
    have isFirst : first ∈ splitBlanks (translateWord d word) := by
      rw [splitBlanks, words]
      exact List.mem_cons_self
    apply apart.lookup?_of_holds
    apply (holds first isFirst).mono
    exact List.Subset.trans (Text.word_of_mem_splitBlanksFrom isFirst).1
      (Text.subset_intercalate _ (List.mem_map_of_mem isWord))

/-- A translation is its own translation. -/
theorem translation_translation (apart : Apart letters d) (t : Text) :
    translation d (translation d t) = translation d t := by
  cases found : d.lookup? t with
  | some value =>
    have whole : translation d t = value := by simp [translation, found]
    rw [whole]
    have holds := apart.holds_of_mem_splitBlanks found
    obtain ⟨first, rest, words⟩ := Text.exists_splitBlanksFrom false value
    have isFirst : first ∈ splitBlanks value := by
      rw [splitBlanks, words]
      exact List.mem_cons_self
    apply (apart.settled_of_holds holds).translation
    exact apart.lookup?_of_holds
      ((holds first isFirst).mono (Text.word_of_mem_splitBlanksFrom isFirst).1)
  | none =>
    have piecewise : translation d t = wordByWord d t := by simp [translation, found]
    by_cases same : wordByWord d t = t
    · rw [piecewise, same, piecewise, same]
    · obtain ⟨settled, unknown⟩ := apart.settled_wordByWord same
      rw [piecewise, settled.translation unknown]

/-- An answer is its own answer, also where it is no text for people. -/
theorem answer_answer (apart : Apart letters d) (t : Text) :
    answer d (answer d t) = answer d t := by
  cases safe : isSafe d t with
  | false => rw [answer_of_not_isSafe safe, answer_of_not_isSafe safe]
  | true =>
    rw [answer_of_isSafe safe]
    cases again : isSafe d (translation d t) with
    | false => exact answer_of_not_isSafe again
    | true => rw [answer_of_isSafe again, apart.translation_translation]

end Apart

/-- Where the letters of the two languages are apart, a text that was translated is not translated
    again: under the memories of all runs the answer for it is the text itself, and nothing more is
    remembered. -/
theorem translate_settles (apart : Apart letters d) (reached : Reachable d memory) (t : Text) :
    ∃ once after, translate d t memory = (once, after) ∧
      translate d once after = (once, after) := by
  refine ⟨(translate d t memory).1, (translate d t memory).2, rfl, ?_⟩
  have answered : (translate d t memory).1 = answer d t := by rw [translate_sound reached.sound]
  rw [translate_sound (reached.visit t).sound, answered, apart.answer_answer]
  simp

/-! ## Arabic -/

/-- The letters of the Arabic alphabet. -/
def isArabic (c : CodePoint) : Bool := 0x621 ≤ c.val && c.val ≤ 0x64A

theorem isArabic_iff {c : CodePoint} : isArabic c = true ↔ 0x621 ≤ c.val ∧ c.val ≤ 0x64A := by
  simp [isArabic]

theorem lower_of_isArabic {c : CodePoint} (letter : isArabic c = true) : c.lower = c := by
  obtain ⟨least, most⟩ := isArabic_iff.1 letter
  -- No run of capital letters reaches into the alphabet.
  have elsewhere : ∀ run ∈ Text.lowerRuns, run.2.1 < 0x621 ∨ 0x64A < run.1 := by decide +kernel
  have small : c.isUpperLetter = false := by
    simp only [CodePoint.isUpperLetter, Bool.and_eq_false_iff, decide_eq_false_iff_not]
    omega
  rw [CodePoint.lower, small, if_neg Bool.false_ne_true, if_neg (by omega)]
  rcases CodePoint.lowerByRuns_cases c.val Text.lowerRuns with same | ⟨run, member, low, high, _⟩
  · rw [same]
    exact Fin.ext (Nat.mod_eq_of_lt c.isLt)
  · have := elsewhere run member
    omega

theorem isArabic_eq_false_of_isPunctuation {c : CodePoint} (mark : isPunctuation c = true) :
    isArabic c = false := by
  have foreign : (Text.ofString ".,;:!?()[]\x7b\x7d'\"").any isArabic = false := by decide
  exact Bool.eq_false_iff.2 (List.any_eq_false.1 foreign c (List.contains_iff_mem.1 mark))

/-- A lexicon without Arabic letters in its keys is kept apart from its translations if these are
    Arabic word for word. -/
theorem apart_of_entries (entries : ∀ e ∈ d, e.1.any isArabic = false ∧
      ((splitBlanks e.2).all (List.any · isArabic) = true ∨ e.2 = [])) :
    Apart {c | isArabic c = true} d := by
  have each : ∀ {key value}, d.entry? key = some value →
      key.any isArabic = false ∧ (splitBlanks value).all (List.any · isArabic) = true :=
    fun found => (entries _ (Mapping.mem_of_find? (Option.filter_eq_some_iff.1 found).1)).imp_right
      fun native => native.resolve_right (entry?_ne_nil found)
  constructor
  case visible =>
    intro c letter
    obtain ⟨least, most⟩ := isArabic_iff.1 letter
    simp [CodePoint.isBlank]
    omega
  case unstripped =>
    intro c letter
    cases mark : isPunctuation c with
    | false => rfl
    | true => exact absurd letter (Bool.eq_false_iff.1 (isArabic_eq_false_of_isPunctuation mark))
  case kept =>
    intro t c letter member
    obtain ⟨least, most⟩ := isArabic_iff.1 letter
    exact Text.mem_lowerAfter (lower_of_isArabic letter) (by omega) (by omega) member []
  case foreign =>
    intro key value found c held letter
    exact absurd letter (List.any_eq_false.1 (each found).1 c held)
  case tight =>
    intro key value found
    refine Text.strip_of_nil_not_mem fun member => ?_
    cases List.all_eq_true.1 (each found).2 [] member
  case native =>
    intro key value found piece isWord _
    exact List.any_eq_true.1 (List.all_eq_true.1 (each found).2 piece isWord)

/-- The code points of a string that is given by its characters. The pattern is left out of the
    index, so that literals match it and nothing has to decode them. -/
theorem ofString_ofList (l : List Char) :
    Text.ofString (no_index (String.ofList l)) = l.map CodePoint.ofChar := by
  rw [Text.ofString, String.toList_ofList]

/-- The bundled lexicon is kept apart from what it translates by the Arabic letters. -/
theorem apart_bundled : Apart {c | isArabic c = true} Lexicon.bundled := by
  refine apart_of_entries ?_
  set_option maxRecDepth 4000 in
  simp only [Lexicon.bundled, Lexicon.bundledEntries, List.map_cons, List.map_nil,
    ofString_ofList]
  decide

/-- A lexicon with a translation of two words and a word that nobody has translated. -/
def smallLexicon : Lexicon :=
  [("welcome", "أهلاً  وسهلاً"), ("Home", "الرئيسية"), ("later", "")]

/-- A greeting whose words are known, known by their cores, or not known. -/
theorem translate_settles_greeting :
    Apart {c | isArabic c = true} smallLexicon ∧ Reachable smallLexicon [] ∧
    ∃ after, translate smallLexicon "(Welcome) Home, later!" [] =
        (Text.ofString "(أهلاً  وسهلاً) الرئيسية, later!", after) ∧
      translate smallLexicon "(أهلاً  وسهلاً) الرئيسية, later!" after =
        (Text.ofString "(أهلاً  وسهلاً) الرئيسية, later!", after) := by
  have apart : Apart {c | isArabic c = true} smallLexicon :=
    apart_of_entries (by decide)
  have reached : Reachable smallLexicon [] := .empty
  refine ⟨apart, reached, ?_⟩
  obtain ⟨once, after, first, second⟩ := translate_settles apart reached "(Welcome) Home, later!"
  have answered : (translate smallLexicon "(Welcome) Home, later!" []).1 =
      Text.ofString "(أهلاً  وسهلاً) الرئيسية, later!" := by
    decide
  obtain rfl : once = Text.ofString "(أهلاً  وسهلاً) الرئيسية, later!" := by rw [← answered, first]
  exact ⟨after, first, second⟩

end Arabize.Phrase
