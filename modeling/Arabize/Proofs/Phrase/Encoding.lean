import Arabize.Proofs.Mapping
import Arabize.Proofs.Phrase.Memory
import Arabize.Proofs.Text.Encodable
import Arabize.Proofs.Text.Search

/-! # Translations that have an encoding

A lexicon without surrogates brings none into the texts that it translates: every code
point of a translation stems from the text, from the lexicon, or is the blank between two
words.

A text that holds a fragment of code is its own answer, whatever the lexicon says of it.
-/

namespace Arabize

open Utf8 (Encodable)

/-! ## Lexicons -/

namespace Lexicon

variable {d : Lexicon}

/-- A lexicon none of whose translations holds a surrogate. -/
def Encodable (d : Lexicon) : Prop := ∀ entry ∈ d, Utf8.Encodable entry.2

instance (d : Lexicon) : Decidable d.Encodable :=
  inferInstanceAs (Decidable (∀ entry ∈ d, Utf8.Encodable entry.2))

theorem Encodable.entry? (encodable : d.Encodable) {t v : Text} (found : d.entry? t = some v) :
    Utf8.Encodable v :=
  encodable _ (Mapping.mem_of_find? (Option.eq_some_of_filter_eq_some found))

theorem Encodable.lookup? (encodable : d.Encodable) {t v : Text} (found : d.lookup? t = some v) :
    Utf8.Encodable v := by
  rcases Option.or_eq_some_iff.1 found with exact | ⟨_, lower⟩
  · exact encodable.entry? exact
  · exact encodable.entry? lower

end Lexicon

/-! ## Answers -/

namespace Phrase

variable {d : Lexicon}

theorem encodable_translateWord (values : d.Encodable) {word : Text} (text : Encodable word) :
    Encodable (translateWord d word) := by
  simp only [translateWord]
  split
  next found => exact values.lookup? found
  next =>
    split
    · exact text
    · split
      next found => exact Text.encodable_replaceFirst text (values.lookup? found)
      next => exact text

theorem encodable_wordByWord (values : d.Encodable) {t : Text} (text : Encodable t) :
    Encodable (wordByWord d t) := by
  simp only [wordByWord]
  split
  · exact text
  · refine Text.encodable_intercalate (Utf8.encodable_ofString _) fun piece member => ?_
    obtain ⟨word, isWord, rfl⟩ := List.mem_map.1 member
    exact encodable_translateWord values (Text.encodable_splitBlanksFrom false text word isWord)

theorem encodable_translation (values : d.Encodable) {t : Text} (text : Encodable t) :
    Encodable (translation d t) := by
  unfold translation
  cases found : d.lookup? t with
  | some v => exact values.lookup? found
  | none => exact encodable_wordByWord values text

theorem encodable_answer (values : d.Encodable) {t : Text} (text : Encodable t) :
    Encodable (answer d t) := by
  unfold answer
  split
  · exact encodable_translation values text
  · exact text

/-- A text with a fragment of code is never translated. -/
theorem answer_of_codeFragment {t fragment : Text} (known : fragment ∈ codeFragments)
    (held : fragment <:+: t) : answer d t = t := by
  have code : looksLikeCode t = true :=
    List.any_eq_true.2 ⟨fragment, known, (Text.occursIn_iff _ _).2 held⟩
  apply answer_of_not_isSafe
  cases t with
  | nil => rfl
  | cons c rest =>
    simp only [isSafe, classify, code, if_true]
    split
    · rfl
    · split <;> rfl

end Phrase

end Arabize
