import Arabize.Document.Missing
import Arabize.Lexicon.Bundled
import Arabize.Proofs.Mapping

/-! # Single words

A single word that a lexicon does not know is left as it is by a translation, and if it was
written for people, it is what is missing.  One that is known is replaced.
-/

namespace Arabize

theorem Text.ofString_injective : Function.Injective Text.ofString := by
  have points : ∀ c other, CodePoint.ofChar c = CodePoint.ofChar other → c = other := by
    intro c other same
    have here : c.toNat.isValidChar := c.valid
    have there : other.toNat.isValidChar := other.valid
    have numbers := congrArg Fin.val same
    simp only [CodePoint.ofChar, CodePoint.ofNat, Fin.ofNat] at numbers
    refine Char.toNat_inj.1 ?_
    unfold Nat.isValidChar at here there
    omega
  intro s other same
  exact String.toList_inj.1 ((List.map_inj_right points).1 same)

namespace Lexicon

theorem knows_eq_false {d : Lexicon} {t : Text} (unknown : d.lookup? t = none) :
    d.knows t = false := by
  rw [knows, unknown]
  rfl

/-- Of the entries that one tier has of a text the last one counts. -/
theorem lookup?_merge_nil (base : Lexicon) (t : Text) :
    (merge [some base, some []]).lookup? t = lookup? base.reverse t := by
  have only : merge [some base, some []] = Mapping.update [] base := rfl
  simp [only, lookup?, entry?, Mapping.find?_update_reverse]

/-- The last entry of a word in the bundled lexicon, unless it is empty. -/
def lastBundled? (w : String) : Option String := (bundledEntries.reverse.lookup w).filter (· ≠ "")

theorem find?_ofString (w : String) (entries : List (String × String)) :
    Mapping.find? (Text.ofString w)
      (entries.map fun e => (Text.ofString e.1, Text.ofString e.2)) =
        (entries.lookup w).map Text.ofString := by
  induction entries with
  | nil => rfl
  | cons e rest ih =>
    rw [List.map_cons, Mapping.find?, ih, List.lookup_cons]
    by_cases same : e.1 = w
    · simp [same]
    · have other : Text.ofString e.1 ≠ Text.ofString w := fun equal =>
        same (Text.ofString_injective equal)
      have unlike : (w == e.1) = false := beq_eq_false_iff_ne.2 (Ne.symm same)
      rw [if_neg other, unlike]

/-- The lexicon of a run without stored words knows what the bundled one has.  Strings are compared
    here: to compare texts would be to spell out the whole lexicon. -/
theorem lookup?_bundled {w low : String} (lower : Text.lower w = Text.ofString low) :
    (merge [some bundled, some []]).lookup? w =
      ((lastBundled? w).or (lastBundled? low)).map Text.ofString := by
  have entry : ∀ w : String, entry? bundled.reverse w = (lastBundled? w).map Text.ofString := by
    intro w
    rw [Lexicon.entry?, bundled, ← List.map_reverse, find?_ofString, lastBundled?]
    cases bundledEntries.reverse.lookup w with
    | none => rfl
    | some v =>
      by_cases empty : v = ""
      · subst empty
        rfl
      · have full : Text.ofString v ≠ [] := fun same => empty (Text.ofString_injective same)
        simp [Option.filter, empty, full]
  rw [lookup?_merge_nil, lookup?, lower, entry, entry]
  cases lastBundled? w <;> simp

/-- The words of the last tier are known. -/
theorem lookup?_merge {base new : Lexicon} {t v : Text} (known : (t, v) ∈ new)
    (nodup : (Mapping.keys new).Nodup) (full : v ≠ []) :
    (merge [some base, some new]).lookup? t = some v := by
  have found : (merge [some base, some new]).find? t = some v :=
    Mapping.find?_update_of_mem nodup known
  have present : Lexicon.entry? (merge [some base, some new]) t = some v := by
    simp [Lexicon.entry?, found, full]
  rw [lookup?, present]
  rfl

end Lexicon

namespace Phrase

variable {d : Lexicon} {w : Text}

/-- Only words that are known make a difference to what was written for people. -/
theorem isSafe_of_unknown (unknown : d.lookup? w = none) : isSafe d w = isSafe [] w := by
  unfold isSafe classify
  rw [Lexicon.knows_eq_false unknown]
  rfl

/-- What is known was written for people, unless it could not be in any case. -/
theorem isSafe_of_known {t : Text} (known : d.lookup? w = some t) (safe : isSafe [] w = true) :
    isSafe d w = true := by
  have knows : d.knows w = true := by
    rw [Lexicon.knows, known]
    rfl
  unfold isSafe classify at safe ⊢
  cases w with
  | nil => exact safe
  | cons c rest =>
    dsimp only at safe ⊢
    -- The rules above that of the lexicon are the same for all lexicons.
    by_cases blank : Text.isBlank (c :: rest) = true
    · simp only [blank, if_true] at safe ⊢
      exact safe
    by_cases address : isAddress (c :: rest) = true
    · simp only [blank, address, if_true] at safe ⊢
      exact safe
    by_cases code : looksLikeCode (c :: rest) = true
    · simp only [blank, address, code, if_true] at safe ⊢
      exact safe
    by_cases numeric : (c :: rest).all isNumericChar = true
    · simp only [blank, address, code, numeric, if_true] at safe ⊢
      exact safe
    rw [if_neg blank, if_neg address, if_neg code, if_neg numeric, if_pos knows]
    rfl

theorem translation_of_unknown (unknown : d.lookup? w = none) (single : Text.splitBlanks w = [w])
    (bare : withoutPunctuation w = w) : translation d w = w := by
  have word : translateWord d w = w := by
    rw [translateWord, unknown]
    simp only [bare, or_true, if_true]
  rw [translation, unknown, wordByWord, single, List.map_singleton, word]
  simp

/-- An unknown word is not changed, and not remembered. -/
theorem translateCounting_of_unknown (unknown : d.lookup? w = none)
    (single : Text.splitBlanks w = [w]) (bare : withoutPunctuation w = w) (changes : Nat) :
    translateCounting d w ⟨[], changes⟩ = (w, ⟨[], changes⟩) := by
  have same := translation_of_unknown unknown single bare
  have resolved : resolve d w [] = (w, []) := by simp [resolve, same]
  have translated : translate d w [] = (w, []) := by
    unfold translate
    rw [Mapping.find?_nil]
    split
    · rfl
    · dsimp only
      split
      · exact resolved
      · rfl
  rw [translateCounting]
  simp only [translated, if_true]

/-- A word that is known and was written for people is replaced, and remembered. -/
theorem translateCounting_of_known {t : Text} (known : d.lookup? w = some t) (other : t ≠ w)
    (blank : Text.isBlank w = false) (safe : isSafe d w = true) (changes : Nat) :
    translateCounting d w ⟨[], changes⟩ = (t, ⟨[(w, t)], changes + 1⟩) := by
  have resolved : resolve d w [] = (t, [(w, t)]) := by
    simp only [resolve, Mapping.find?_nil, translation, known, Option.getD_some, other, if_false]
    rfl
  have translated : translate d w [] = (t, [(w, t)]) := by
    simp only [translate, blank, Bool.false_eq_true, if_false, Mapping.find?_nil, safe, if_true,
      resolved]
  simp only [translateCounting, translated, other, if_false]

end Phrase

/-- An unknown word that was written for people is wanted. -/
theorem Missing.wantedIn_of_unknown {d : Lexicon} {w : Text} (unknown : d.lookup? w = none)
    (single : Text.splitBlanks w = [w]) (bare : Phrase.withoutPunctuation w = w)
    (safe : Phrase.isSafe [] w = true) : wantedIn d w = [w, w] := by
  have wanted : isWanted d w = true := by
    rw [isWanted, Phrase.isSafe_of_unknown unknown, safe, Lexicon.knows_eq_false unknown]
    rfl
  have spelled : parts w = [w] := by simp [parts, single, spellings, bare]
  rw [wantedIn, if_pos wanted, spelled, List.filter_cons_of_pos wanted]
  rfl

end Arabize
