import Arabize.Proofs.Script.Marks
import Arabize.Proofs.Text.Escapes

/-! # The spellings of a text

A literal may hold a code point as it is, or in one of several escapes, and it may be broken
over lines anywhere.  `Spells` lists all the bodies that a text can be spelled by, the choice
made anew for every code point, and `decode_of_spells` says that each of them is read as the
text.

Escapes are replaced one after the other (`replaceEscapes_spelled`).  Only a code point past the
first plane can come out of that as two, and these two are joined again.
-/

namespace Arabize.Script.Literal

open Text (Hexadecimal)
open Utf8 (Encodable)

/-! ## Bodies -/

/-- The letters of escapes, and the controls that they stand for. -/
def controls : List (CodePoint × CodePoint) :=
  [('n', 0x0A), ('r', 0x0D), ('t', 0x09), ('b', 0x08), ('f', 0x0C), ('v', 0x0B)]

/-- The code points that a backslash may stand before. -/
def guarded : List CodePoint := ['"', '\'', '`', '$', '\\']

/-- The body of a literal that spells a single code point. -/
inductive SpellsChar : CodePoint → Text → Prop
  | plain {c : CodePoint} : c ≠ '\\' → SpellsChar c [c]
  | braced {c : CodePoint} {digits : Text} : Hexadecimal digits c.val →
      SpellsChar c ((['\\', 'u', '\x7b'] : Text) ++ digits ++ (['\x7d'] : Text))
  | wide {c : CodePoint} {digits : Text} : Hexadecimal digits c.val → digits.length = 4 →
      SpellsChar c ((['\\', 'u'] : Text) ++ digits)
  /-- Past the first plane a code point is given by the two halves of a surrogate pair. -/
  | pair {c : CodePoint} {high low : Text} : 0xFFFF < c.val →
      Hexadecimal high c.upperHalf.val → high.length = 4 →
      Hexadecimal low c.lowerHalf.val → low.length = 4 →
      SpellsChar c ((['\\', 'u'] : Text) ++ high ++ (['\\', 'u'] : Text) ++ low)
  | narrow {c : CodePoint} {digits : Text} : Hexadecimal digits c.val → digits.length = 2 →
      SpellsChar c ((['\\', 'x'] : Text) ++ digits)
  | control {e c : CodePoint} : (e, c) ∈ controls → SpellsChar c ['\\', e]
  | guarded {c : CodePoint} : c ∈ guarded → SpellsChar c ['\\', c]

/-- The ways to go on in the next line: a backslash and a line break. -/
def continuations : List Text :=
  [['\\', 0x0A], ['\\', 0x0D, 0x0A], ['\\', 0x0D], ['\\', 0x2028], ['\\', 0x2029]]

/-- The bodies of literals that spell a text. -/
inductive Spells : Text → Text → Prop
  | nil : Spells [] []
  | cons {c : CodePoint} {v s t : Text} : SpellsChar c s → Spells v t → Spells (c :: v) (s ++ t)
  /-- A carriage return would be taken together with a line feed behind it. -/
  | broken {v b t : Text} : b ∈ continuations →
      (b = (['\\', 0x0D] : Text) → t.head? ≠ some 0x0A) → Spells v t → Spells v (b ++ t)

variable {c : CodePoint} {s t u v w digits : Text} {n : Nat}

/-! ## One escape -/

theorem bracedDigits?_braced (hex : Hexadecimal digits n) (t : Text) :
    bracedDigits? ('\x7b' :: (digits ++ CodePoint.ofChar '\x7d' :: t)) = some digits := by
  obtain ⟨filled, all, _⟩ := hex
  have longest : (digits ++ CodePoint.ofChar '\x7d' :: t).takeWhile
      (fun d => d.hexValue?.isSome) = digits := by
    rw [List.takeWhile_append_of_pos (List.all_eq_true.1 all),
      List.takeWhile_cons_of_neg (by decide), List.append_nil]
  simp only [bracedDigits?, longest]
  rw [if_pos ⟨trivial, filled, by simp⟩]

/-- Digits are not taken for a brace. -/
theorem bracedDigits?_bare (hex : Hexadecimal digits n) (t : Text) :
    bracedDigits? (digits ++ t) = none := by
  obtain ⟨filled, all, _⟩ := hex
  cases digits with
  | nil => exact absurd rfl filled
  | cons d digits =>
    have other : d ≠ CodePoint.ofChar '\x7b' := by
      rintro rfl
      exact absurd (List.all_eq_true.1 all _ List.mem_cons_self) (by decide)
    simp only [List.cons_append, bracedDigits?]
    rw [if_neg fun braced => other braced.1]

theorem fixedDigits?_append (hex : Hexadecimal digits n) (t : Text) :
    fixedDigits? digits.length (digits ++ t) = some digits := by
  obtain ⟨_, all, _⟩ := hex
  rw [fixedDigits?, List.take_left, if_pos ⟨rfl, all⟩]

theorem readEscape_braced (hex : Hexadecimal digits c.val) (t : Text) :
    readEscape 'u' ('\x7b' :: (digits ++ CodePoint.ofChar '\x7d' :: t)) =
      .ok ([c], digits.length + 3) := by
  have value : Text.hexValue digits = c.val := hex.2.2
  rw [readEscape, if_pos rfl, bracedDigits?_braced hex t]
  simp only [value]
  rw [if_neg (by simp only [maxEscape]; omega), if_neg (by omega), Utf8.codePoint_ofNat_eq rfl]

theorem readEscape_wide (hex : Hexadecimal digits c.val) (four : digits.length = 4) (t : Text) :
    readEscape 'u' (digits ++ t) = .ok ([c], 5) := by
  have fixed := fixedDigits?_append hex t
  rw [four] at fixed
  rw [readEscape, if_pos rfl, bracedDigits?_bare hex t]
  simp only [fixed, hex.2.2]
  rw [Utf8.codePoint_ofNat_eq rfl]

theorem readEscape_narrow (hex : Hexadecimal digits c.val) (two : digits.length = 2) (t : Text) :
    readEscape 'x' (digits ++ t) = .ok ([c], 3) := by
  have fixed := fixedDigits?_append hex t
  rw [two] at fixed
  rw [readEscape, if_neg (by decide), if_pos rfl]
  simp only [fixed, hex.2.2]
  rw [Utf8.codePoint_ofNat_eq rfl]

/-- An escape gives way to what it stands for. -/
theorem replaceEscapes_escape {e : CodePoint} {meaning : Text} {width : Nat}
    (escape : readEscape e u = .ok (meaning, width))
    (behind : replaceEscapes 0 ((e :: u).drop width) = .ok w) :
    replaceEscapes 0 ('\\' :: e :: u) = .ok (meaning ++ w) := by
  simp only [replaceEscapes, if_true, escape, replaceEscapes_skip width, behind]

theorem replaceEscapes_wide (hex : Hexadecimal digits c.val) (four : digits.length = 4)
    (behind : replaceEscapes 0 t = .ok w) :
    replaceEscapes 0 ('\\' :: 'u' :: (digits ++ t)) = .ok (c :: w) := by
  refine replaceEscapes_escape (readEscape_wide hex four t) ?_
  rwa [List.drop_succ_cons, List.drop_left' four]

/-! ## One code point -/

/-- What a code point is until surrogates are joined: itself, or the two halves of a pair. -/
def Halved (c : CodePoint) (units : Text) : Prop :=
  units = [c] ∨ 0xFFFF < c.val ∧ units = [c.upperHalf, c.lowerHalf]

theorem simple_of_control {e : CodePoint} (listed : (e, c) ∈ controls) :
    Simple e ∧ simpleEscape e = [c] := by
  have all : (controls.all fun row =>
      decide (Simple row.1 ∧ simpleEscape row.1 = [row.2])) = true := by decide
  exact of_decide_eq_true (List.all_eq_true.1 all _ listed)

theorem simple_of_guarded (listed : c ∈ guarded) : Simple c ∧ simpleEscape c = [c] := by
  have all : (guarded.all fun c => decide (Simple c ∧ simpleEscape c = [c])) = true := by decide
  exact of_decide_eq_true (List.all_eq_true.1 all c listed)

theorem replaceEscapes_simple {e : CodePoint} (simple : Simple e ∧ simpleEscape e = [c])
    (behind : replaceEscapes 0 t = .ok w) : replaceEscapes 0 ('\\' :: e :: t) = .ok (c :: w) := by
  have escape := readEscape_of_simple simple.1 t
  rw [simple.2] at escape
  exact replaceEscapes_escape escape behind

/-- A code point is what its spelling is replaced by, whatever follows. -/
theorem replaceEscapes_spelled (spelled : SpellsChar c s) :
    ∃ units, Halved c units ∧ ∀ t w, replaceEscapes 0 t = .ok w →
      replaceEscapes 0 (s ++ t) = .ok (units ++ w) := by
  cases spelled with
  | plain bare =>
    refine ⟨[c], .inl rfl, fun t w behind => ?_⟩
    rw [List.singleton_append, replaceEscapes.eq_def]
    simp only [if_neg bare, behind, List.singleton_append]
  | @braced _ digits hex =>
    refine ⟨[c], .inl rfl, fun t w behind => ?_⟩
    simp only [List.append_assoc, List.cons_append, List.nil_append]
    refine replaceEscapes_escape (readEscape_braced hex t) ?_
    have rest : ('u' :: '\x7b' :: (digits ++ CodePoint.ofChar '\x7d' :: t) : Text).drop
        (digits.length + 3) = t := by
      rw [show digits.length + 3 = digits.length + 1 + 1 + 1 from rfl, List.drop_succ_cons,
        List.drop_succ_cons, List.drop_append]
      simp
    rwa [rest]
  | wide hex four =>
    refine ⟨[c], .inl rfl, fun t w behind => ?_⟩
    exact replaceEscapes_wide hex four behind
  -- Two escapes are read as two halves, one after the other.
  | pair past high highFour low lowFour =>
    refine ⟨_, .inr ⟨past, rfl⟩, fun t w behind => ?_⟩
    simp only [List.append_assoc, List.cons_append, List.nil_append]
    exact replaceEscapes_wide high highFour (replaceEscapes_wide low lowFour behind)
  | @narrow _ digits hex two =>
    refine ⟨[c], .inl rfl, fun t w behind => ?_⟩
    rw [List.append_assoc]
    refine replaceEscapes_escape (readEscape_narrow hex two t) ?_
    exact (List.drop_left' two : (digits ++ t).drop 2 = t).symm ▸ behind
  | control listed =>
    exact ⟨[c], .inl rfl, fun t w behind => replaceEscapes_simple (simple_of_control listed) behind⟩
  | guarded listed =>
    exact ⟨[c], .inl rfl, fun t w behind => replaceEscapes_simple (simple_of_guarded listed) behind⟩

/-- A line that is continued stands for nothing. -/
theorem replaceEscapes_broken {b : Text} (listed : b ∈ continuations)
    (apart : b = (['\\', 0x0D] : Text) → t.head? ≠ some 0x0A)
    (behind : replaceEscapes 0 t = .ok w) :
    replaceEscapes 0 (b ++ t) = .ok w := by
  have simple : ∀ e, readEscape e t = .ok ([], 1) →
      replaceEscapes 0 ('\\' :: e :: t) = .ok w :=
    fun e escape => replaceEscapes_escape escape behind
  simp only [continuations, List.mem_cons, List.not_mem_nil, or_false] at listed
  rcases listed with rfl | rfl | rfl | rfl | rfl
  · exact simple 0x0A (readEscape_of_simple (by decide) t)
  · have escape : readEscape 0x0D (0x0A :: t) = .ok ([], 2) := rfl
    exact replaceEscapes_escape escape behind
  · refine simple 0x0D ?_
    rw [readEscape, if_neg (by decide), if_neg (by decide), if_neg fun taken => apart rfl taken.2]
    rfl
  · exact simple 0x2028 (readEscape_of_simple (by decide) t)
  · exact simple 0x2029 (readEscape_of_simple (by decide) t)

/-! ## Surrogate pairs -/

theorem joinSurrogates_cons (plain : c.isSurrogate = false) (w : Text) :
    joinSurrogates (c :: w) = c :: joinSurrogates w := by
  have kept : replaceLone c = c := by simp [replaceLone, plain]
  cases w with
  | nil => rw [joinSurrogates, joinSurrogates, kept]
  | cons d w => simp [joinSurrogates, isHighSurrogate_eq_false plain, kept]

/-- The two halves of a pair are joined to the code point that they are halves of. -/
theorem joinSurrogates_halves (past : 0xFFFF < c.val) (w : Text) :
    joinSurrogates (c.upperHalf :: c.lowerHalf :: w) = c :: joinSurrogates w := by
  have isPair : (c.upperHalf.isHighSurrogate && c.lowerHalf.isLowSurrogate) = true := by
    rw [c.isHighSurrogate_upperHalf, c.isLowSurrogate_lowerHalf]
    rfl
  rw [joinSurrogates, if_pos isPair, Utf8.codePoint_ofNat_eq (CodePoint.joined_halves past)]

theorem joinSurrogates_halved (plain : c.isSurrogate = false) (halved : Halved c u) (w : Text) :
    joinSurrogates (u ++ w) = c :: joinSurrogates w := by
  rcases halved with rfl | ⟨past, rfl⟩
  · exact joinSurrogates_cons plain w
  · exact joinSurrogates_halves past w

/-! ## All spellings -/

theorem replaceEscapes_of_spells (encodable : Encodable v) (spells : Spells v t) :
    ∃ w, replaceEscapes 0 t = .ok w ∧ joinSurrogates w = v := by
  induction spells with
  | nil => exact ⟨[], rfl, rfl⟩
  | cons here _ ih =>
    obtain ⟨plain, encodable⟩ := Utf8.encodable_cons.1 encodable
    obtain ⟨w, replaced, joined⟩ := ih encodable
    obtain ⟨units, halved, replaces⟩ := replaceEscapes_spelled here
    exact ⟨units ++ w, replaces _ w replaced, by rw [joinSurrogates_halved plain halved, joined]⟩
  | broken listed apart _ ih =>
    obtain ⟨w, replaced, joined⟩ := ih encodable
    exact ⟨w, replaceEscapes_broken listed apart replaced, joined⟩

/-- Whatever body a text without surrogates is spelled by, it is read as that text. -/
theorem decode_of_spells (encodable : Encodable v) (spells : Spells v t) : decode t = .ok v := by
  obtain ⟨w, replaced, joined⟩ := replaceEscapes_of_spells encodable spells
  simp only [decode, replaced, joined]

/-- A byte order mark as it is, a line that is continued, then a face as a pair and an `A` with
    zeros before it. -/
theorem decode_of_spells_face :
    let v : Text := [0xFEFF, 0x1F600, 'A']
    let t : Text := 0xFEFF :: "\\\r\\uD83d\\uDe00\\u\x7b00041\x7d"
    Encodable v ∧ Spells v t ∧ decode t = .ok v := by
  intro v t
  have encodable : Encodable v := by decide
  have high : Hexadecimal "D83d" (CodePoint.upperHalf 0x1F600).val :=
    ⟨by decide, by decide, by decide⟩
  have low : Hexadecimal "De00" (CodePoint.lowerHalf 0x1F600).val :=
    ⟨by decide, by decide, by decide⟩
  have letter : Hexadecimal "00041" (CodePoint.ofChar 'A').val :=
    ⟨by decide, by decide, by decide⟩
  have face : SpellsChar 0x1F600 _ := .pair (by decide) high (by decide) low (by decide)
  have written : Spells [0x1F600, 'A'] _ := .cons face (.cons (.braced letter) .nil)
  have whole : Spells v _ := .cons (.plain (by decide))
    (.broken (by decide : (['\\', 0x0D] : Text) ∈ continuations) (fun _ => by decide) written)
  have spells : Spells v t := by
    refine Eq.mp (congrArg (Spells v) ?_) whole
    decide
  exact ⟨encodable, spells, decode_of_spells encodable spells⟩

end Arabize.Script.Literal
