import Arabize.Json.Reader
import Arabize.Json.Writer

/-! # Reading strings back

Every code point of a string is read back from what it is written with, be it itself, a short
escape or four digits; so a written string is read as the text it was written for, and the
reading ends behind its closing quote (`readString_writeText`).
-/

namespace Arabize.Json

variable {start n : Nat} {c : CodePoint} {t s : Text} {cur : Cursor}

/-! ## Escapes -/

theorem unescape?_shortEscape? {e : CodePoint} (short : shortEscape? c = some e) :
    e ≠ CodePoint.ofChar 'u' ∧ unescape? e = some c := by
  have feed : c.val = 0x0C ↔ c = 0x0C :=
    ⟨fun same => Fin.ext same, fun same => congrArg Fin.val same⟩
  have back : c.val = 0x08 ↔ c = 0x08 :=
    ⟨fun same => Fin.ext same, fun same => congrArg Fin.val same⟩
  simp only [shortEscape?, feed, back] at short
  repeat' split at short
  all_goals cases short
  all_goals
    rename_i same
    subst same
    decide

theorem hexValue?_digit : ∀ k < 16, (Text.digit k).hexValue? = some k := by decide

theorem hex4?_hexFixed {k : Nat} (small : k < 0x10000) (t : Text) :
    hex4? (Text.hexFixed 4 k ++ t) = some k := by
  have digits : Text.hexFixed 4 k =
      [Text.digit (k / 16 / 16 / 16 % 16), Text.digit (k / 16 / 16 % 16),
        Text.digit (k / 16 % 16), Text.digit (k % 16)] := rfl
  have value : ((k / 16 / 16 / 16 % 16 * 16 + k / 16 / 16 % 16) * 16 + k / 16 % 16) * 16 + k % 16 =
      k := by omega
  rw [digits]
  simp only [List.cons_append, List.nil_append, hex4?]
  rw [hexValue?_digit _ (by omega), hexValue?_digit _ (by omega), hexValue?_digit _ (by omega),
    hexValue?_digit _ (by omega)]
  exact congrArg some value

theorem length_hexFixed (k n : Nat) : (Text.hexFixed k n).length = k := by
  induction k generalizing n with
  | zero => rfl
  | succ k ih => rw [Text.hexFixed, List.length_append, ih, List.length_singleton]

theorem readUnicodeEscape_hexFixed {k : Nat} (small : k < 0x20) (filled : t ≠ []) :
    readUnicodeEscape (Text.hexFixed 4 k ++ t) n = .ok (CodePoint.ofNat k, 4) := by
  have long : ¬ (Text.hexFixed 4 k ++ t).length ≤ 4 := by
    have := List.length_pos_iff.2 filled
    rw [List.length_append, length_hexFixed]
    omega
  have single : (CodePoint.ofNat k).isHighSurrogate = false := by
    have low : (CodePoint.ofNat k).val = k := Nat.mod_eq_of_lt (by omega)
    rw [CodePoint.isHighSurrogate, low, Bool.and_eq_false_iff]
    exact .inl (decide_eq_false (by omega))
  rw [readUnicodeEscape, if_neg long, hex4?_hexFixed (by omega)]
  simp only [single, Bool.false_and, Bool.false_eq_true, if_false]

/-! ## Strings -/

theorem readString_skip (start n : Nat) (front t : Text) :
    readString start front.length n (front ++ t) = readString start 0 (n + front.length) t := by
  induction front generalizing n with
  | nil => rfl
  | cons c front ih =>
    rw [List.cons_append, List.length_cons, readString, ih, Nat.add_right_comm, Nat.add_assoc n]

/-- A code point is read back from what it is written with. -/
theorem readString_writeChar
    (rest : readString start 0 (n + (writeChar c).length) t = .ok (s, cur)) :
    readString start 0 n (writeChar c ++ t) = .ok (c :: s, cur) := by
  have filled : t ≠ [] := by
    rintro rfl
    cases rest
  have mark : CodePoint.ofChar '\\' ≠ CodePoint.ofChar '"' := by decide
  unfold writeChar at rest ⊢
  cases short : shortEscape? c with
  | some e =>
    obtain ⟨letter, read⟩ := unescape?_shortEscape? short
    have behind : readString start 1 (n + 1) (e :: t) = .ok (s, cur) := by
      rw [← rest, short]
      exact readString_skip start (n + 1) [e] t
    change readString start 0 n (CodePoint.ofChar '\\' :: e :: t) = _
    rw [readString.eq_def]
    simp only [mark, if_false, if_true, letter, read, behind]
  | none =>
    simp only [short] at rest
    dsimp only
    split at rest
    next control =>
      -- Behind the backslash, the letter and its four digits are skipped.
      have behind : readString start 5 (n + 1)
          (CodePoint.ofChar 'u' :: (Text.hexFixed 4 c.val ++ t)) = .ok (s, cur) := by
        rw [← rest]
        exact readString_skip start (n + 1) ('u' :: Text.hexFixed 4 c.val) t
      rw [if_pos control]
      change readString start 0 n
        (CodePoint.ofChar '\\' :: CodePoint.ofChar 'u' :: (Text.hexFixed 4 c.val ++ t)) = _
      rw [readString.eq_def]
      simp only [mark, if_false, if_true, readUnicodeEscape_hexFixed control filled, behind]
      rw [show CodePoint.ofNat c.val = c from Fin.ofNat_val_eq_self c]
    next plain =>
      rw [if_neg plain]
      change readString start 0 n (c :: t) = _
      have quote : c ≠ CodePoint.ofChar '"' := by
        rintro rfl
        cases short
      have backslash : c ≠ CodePoint.ofChar '\\' := by
        rintro rfl
        cases short
      rw [readString.eq_def]
      simp only [quote, backslash, plain, if_false]
      rw [show readString start 0 (n + 1) t = .ok (s, cur) from rest]

/-- A written string is read as its text, up to its closing quote. -/
theorem readString_writeText (start n : Nat) (t rest : Text) :
    ∃ m, readString start 0 n (t.flatMap writeChar ++ CodePoint.ofChar '"' :: rest) =
      .ok (t, ⟨rest, m⟩) := by
  induction t generalizing n with
  | nil => exact ⟨n + 1, by rw [List.flatMap_nil, List.nil_append, readString.eq_def]; rfl⟩
  | cons c t ih =>
    obtain ⟨m, behind⟩ := ih (n + (writeChar c).length)
    rw [List.flatMap_cons, List.append_assoc]
    exact ⟨m, readString_writeChar behind⟩

end Arabize.Json
