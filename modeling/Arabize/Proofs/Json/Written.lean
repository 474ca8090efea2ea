import Arabize.Proofs.Json.RoundTrip
import Arabize.Proofs.Json.Spellings
import Arabize.Proofs.Lexicon.Store

/-! # What is written is a spelling

The text that an object of texts is written as is one of its spellings (`enclosed_write`).  So
what holds of every spelling, such as that no beginning of it is a document, holds of what is in
a file that was written.
-/

namespace Arabize.Json

open Text (Hexadecimal)

variable {c : CodePoint} {k s b : Text} {kv : Text × Json} {m : Mapping Json}

/-! ## Strings -/

theorem mem_of_unescape? {e : CodePoint} (short : unescape? e = some c) :
    (e, c) ∈ shortEscapes := by
  unfold unescape? at short
  split at short
  next itself =>
    cases short
    rcases itself with rfl | rfl | rfl <;> decide
  · repeat' split at short
    all_goals cases short
    all_goals
      rename_i same
      subst same
      decide

theorem wideEscape_unicodeEscape (control : c.val < 0x20) :
    WideEscape c (unicodeEscape c.val) := by
  have digits : ∀ n < 0x20, Hexadecimal (Text.hexFixed 4 n) n := by
    unfold Hexadecimal
    decide
  exact ⟨_, rfl, digits _ control, length_hexFixed 4 _⟩

theorem spellsBody_writeChar (spells : SpellsBody s b) (c : CodePoint) :
    SpellsBody (c :: s) (writeChar c ++ b) := by
  unfold writeChar
  cases short : shortEscape? c with
  | some e => exact .short (mem_of_unescape? (unescape?_shortEscape? short).2) spells
  | none =>
    dsimp only
    split
    next control =>
      refine .wide (wideEscape_unicodeEscape control) (fun high => ?_) spells
      simp only [CodePoint.isHighSurrogate, Bool.and_eq_true, decide_eq_true_eq] at high
      omega
    next visible =>
      refine .plain ?_ ?_ (Nat.le_of_not_lt visible) spells
      all_goals
        rintro rfl
        cases short

theorem spellsText_writeText (k : Text) : SpellsText k (writeText k) := by
  refine ⟨k.flatMap writeChar, ?_, by simp [writeText, quoteMark, Text.ofString]⟩
  induction k with
  | nil => exact .nil
  | cons c k ih => exact spellsBody_writeChar ih c

/-! ## Objects of texts -/

/-- What is written for a field. -/
def fieldText (kv : Text × Json) : Text := writeText kv.1 ++ keyMark ++ writeAt writeText 1 kv.2

theorem spellsField_fieldText (text : ∃ t, kv.2 = .str t) :
    SpellsField SpellsString kv (fieldText kv) := by
  obtain ⟨key, value⟩ := kv
  obtain ⟨t, rfl⟩ := text
  have blank : Spaces [0x20] := List.forall_mem_singleton.2 rfl
  exact .field (spellsText_writeText key) spaces_nil blank ⟨t, rfl, spellsText_writeText t⟩

theorem fieldsAt_one (kv : Text × Json) (rest : Mapping Json) :
    fieldsAt 1 (kv :: rest) = fieldText kv ++ writeFields writeText 1 rest := by
  simp [fieldsAt, fieldText]

theorem listed_fieldsAt (rest : Mapping Json) (kv : Text × Json) (textual : Textual (kv :: rest)) :
    Listed (SpellsField SpellsString) (kv :: rest) (fieldsAt 1 (kv :: rest) ++ newline 0) := by
  induction rest generalizing kv with
  | nil =>
    have field := spellsField_fieldText (List.forall_mem_cons.1 textual).1
    rw [fieldsAt_one, writeFields, List.append_nil]
    exact .last field (spaces_newline 0)
  | cons next rest ih =>
    obtain ⟨here, behind⟩ := List.forall_mem_cons.1 textual
    rw [fieldsAt_one, writeFields_cons, List.append_assoc, List.cons_append, List.append_assoc]
    exact .more (spellsField_fieldText here) spaces_nil (spaces_newline 1) (ih next behind)

/-- An object of texts is written as one of its spellings. -/
theorem enclosed_write (textual : Textual m) :
    Enclosed '\x7b' '\x7d' (SpellsField SpellsString) m (write (.obj m)) := by
  cases m with
  | nil => exact .empty spaces_nil
  | cons kv rest =>
    have laid := writeAt_obj 0 kv rest []
    rw [List.append_nil, ← List.append_assoc (fieldsAt _ _)] at laid
    rw [write, laid]
    exact .filled (spaces_newline 1) (listed_fieldsAt rest kv textual)

end Arabize.Json
