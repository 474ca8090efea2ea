import Arabize.Proofs.Text.Utf8
import Arabize.Script.Literal

/-! # What escapes can hide

The text that a literal spells has no surrogates.  It also holds every interpolation mark
that its body holds: no escape takes a `$` in except as itself, so the two code points that
open a substitution are still side by side after the escapes have been replaced.
-/

namespace Arabize.Script.Literal

open Utf8 (Encodable)

/-! ## Surrogates -/

theorem isSurrogate_replaceLone (c : CodePoint) : (replaceLone c).isSurrogate = false := by
  unfold replaceLone
  split
  · decide
  next plain => exact Bool.eq_false_iff.2 plain

theorem isSurrogate_joined {c e : CodePoint} (high : c.isHighSurrogate = true)
    (low : e.isLowSurrogate = true) :
    (CodePoint.ofNat (0x10000 + (c.val - 0xD800) * 0x400 + (e.val - 0xDC00))).isSurrogate
      = false := by
  simp only [CodePoint.isHighSurrogate, CodePoint.isLowSurrogate, Bool.and_eq_true,
    decide_eq_true_eq] at high low
  -- A pair stands for a number past the first plane.
  rw [Utf8.isSurrogate_eq_false_iff]
  simp only [CodePoint.ofNat, Fin.ofNat]
  omega

theorem encodable_joinSurrogates (t : Text) : Encodable (joinSurrogates t) := by
  fun_induction joinSurrogates t with
  | case1 => exact Utf8.encodable_nil
  | case2 c => simp [isSurrogate_replaceLone]
  | case3 c e t pair ih =>
    rw [Bool.and_eq_true] at pair
    exact Utf8.encodable_cons.2 ⟨isSurrogate_joined pair.1 pair.2, ih⟩
  | case4 c e t _ ih => exact Utf8.encodable_cons.2 ⟨isSurrogate_replaceLone c, ih⟩

theorem encodable_of_decode {body t : Text} (decoded : decode body = .ok t) : Encodable t := by
  unfold decode at decoded
  split at decoded
  · cases decoded
  · cases decoded
    exact encodable_joinSurrogates _

/-! ## Interpolation -/

/-- What opens a substitution in a template. -/
def interpolation : Text := ['$', '\x7b']

theorem interpolation_infix_cons_iff (c : CodePoint) (t : Text) :
    interpolation <:+: c :: t ↔
      (c = CodePoint.ofChar '$' ∧ t.head? = some (CodePoint.ofChar '\x7b')) ∨
        interpolation <:+: t := by
  rw [List.infix_cons_iff]
  cases t with
  | nil => simp [interpolation]
  | cons e t => simp [interpolation, List.cons_prefix_cons, eq_comm]

theorem isSome_hexValue?_dollar : (CodePoint.ofChar '$').hexValue?.isSome = false := by decide

theorem dollar_not_mem_of_hex {digits : Text}
    (hex : ∀ c ∈ digits, c.hexValue?.isSome = true) : CodePoint.ofChar '$' ∉ digits := by
  intro member
  have := hex _ member
  rw [isSome_hexValue?_dollar] at this
  cases this

theorem interpolation_infix_of_append {s t : Text} (free : CodePoint.ofChar '$' ∉ s)
    (held : interpolation <:+: s ++ t) : interpolation <:+: t := by
  induction s with
  | nil => exact held
  | cons c s ih =>
    rw [List.mem_cons, not_or] at free
    rw [List.cons_append, interpolation_infix_cons_iff] at held
    rcases held with ⟨rfl, _⟩ | later
    · exact absurd rfl free.1
    · exact ih free.2 later

theorem bracedDigits?_eq_some {t digits : Text} (found : bracedDigits? t = some digits) :
    (∃ rest, t = CodePoint.ofChar '\x7b' :: (digits ++ CodePoint.ofChar '\x7d' :: rest)) ∧
      ∀ c ∈ digits, c.hexValue?.isSome = true := by
  cases t with
  | nil => cases found
  | cons c t =>
    simp only [bracedDigits?] at found
    split at found
    next shape =>
      cases found
      obtain ⟨rfl, _, closed⟩ := shape
      refine ⟨?_, List.all_eq_true.1 List.all_takeWhile⟩
      generalize split : t.takeWhile (fun d => d.hexValue?.isSome) = digits at closed
      obtain ⟨rest, behind⟩ := List.head?_eq_some_iff.1 closed
      have whole : digits ++ t.drop digits.length = t := by
        rw [← split]
        exact List.prefix_iff_eq_append.1 (List.takeWhile_prefix _)
      exact ⟨rest, by rw [← behind, whole]⟩
    next => cases found

theorem fixedDigits?_eq_some {n : Nat} {t digits : Text} (found : fixedDigits? n t = some digits) :
    digits = t.take n ∧ ∀ c ∈ digits, c.hexValue?.isSome = true := by
  simp only [fixedDigits?] at found
  split at found
  next shape =>
    cases found
    exact ⟨rfl, List.all_eq_true.1 shape.2⟩
  next => cases found

theorem dollar_not_mem_of_bracedDigits? {t digits : Text} (braced : bracedDigits? t = some digits) :
    CodePoint.ofChar '$' ∉ (CodePoint.ofChar 'u' :: t).take (digits.length + 3) := by
  obtain ⟨⟨rest, rfl⟩, hex⟩ := bracedDigits?_eq_some braced
  rw [List.take_succ_cons, List.take_succ_cons, List.take_length_add_append,
    List.take_succ_cons, List.take_zero]
  simp only [List.mem_cons, List.mem_append, List.not_mem_nil, or_false]
  rintro (absent | absent | inside | absent)
  · exact absurd absent (by decide)
  · exact absurd absent (by decide)
  · exact dollar_not_mem_of_hex hex inside
  · exact absurd absent (by decide)

theorem dollar_not_mem_of_fixedDigits? {n : Nat} {c : CodePoint} {t digits : Text}
    (letter : CodePoint.ofChar '$' ≠ c) (fixed : fixedDigits? n t = some digits) :
    CodePoint.ofChar '$' ∉ (c :: t).take (n + 1) := by
  obtain ⟨rfl, hex⟩ := fixedDigits?_eq_some fixed
  rw [List.take_succ_cons, List.mem_cons, not_or]
  exact ⟨letter, dollar_not_mem_of_hex hex⟩

/-- An escape takes a `$` in only as itself. -/
theorem readEscape_of_dollar_mem {c : CodePoint} {t meaning : Text} {width : Nat}
    (escape : readEscape c t = .ok (meaning, width))
    (member : CodePoint.ofChar '$' ∈ (c :: t).take width) :
    c = CodePoint.ofChar '$' ∧ meaning = [CodePoint.ofChar '$'] ∧ width = 1 := by
  have single : CodePoint.ofChar '$' ∈ (c :: t).take 1 → c = CodePoint.ofChar '$' := by
    simp [eq_comm]
  -- By the sort of the escape: its digits hold no `$`, and its letters are none.
  unfold readEscape at escape
  split at escape
  next isU =>
    subst isU
    split at escape
    next digits braced =>
      have free := dollar_not_mem_of_bracedDigits? braced
      dsimp only at escape
      split at escape
      · cases escape
      · split at escape
        all_goals
          cases escape
          exact absurd member free
    next =>
      split at escape
      next digits fixed =>
        cases escape
        exact absurd member (dollar_not_mem_of_fixedDigits? (by decide) fixed)
      next =>
        cases escape
        exact absurd (single member) (by decide)
  next =>
    split at escape
    next isX =>
      subst isX
      split at escape
      next digits fixed =>
        cases escape
        exact absurd member (dollar_not_mem_of_fixedDigits? (by decide) fixed)
      next =>
        cases escape
        exact absurd (single member) (by decide)
    next =>
      split at escape
      next lineEnd =>
        cases escape
        obtain ⟨isReturn, isFeed⟩ := lineEnd
        obtain ⟨rest, rfl⟩ := List.head?_eq_some_iff.1 isFeed
        simp only [List.take_succ_cons, List.take_zero, List.mem_cons, List.not_mem_nil,
          or_false] at member
        rcases member with rfl | absent
        · exact absurd isReturn (by decide)
        · exact absurd absent (by decide)
      next =>
        cases escape
        have here := single member
        subst here
        exact ⟨rfl, by decide, rfl⟩

theorem replaceEscapes_skip (k : Nat) (t : Text) :
    replaceEscapes k t = replaceEscapes 0 (t.drop k) := by
  induction k generalizing t with
  | zero => rfl
  | succ k ih =>
    cases t with
    | nil => rfl
    | cons c t => simpa only [replaceEscapes, List.drop_succ_cons] using ih t

theorem replaceEscapes_cons {c : CodePoint} (plain : c ≠ CodePoint.ofChar '\\') {t v : Text}
    (replaced : replaceEscapes 0 (c :: t) = .ok v) :
    ∃ rest, replaceEscapes 0 t = .ok rest ∧ v = c :: rest := by
  unfold replaceEscapes at replaced
  rw [if_neg plain] at replaced
  split at replaced
  · cases replaced
  next rest further =>
    cases replaced
    exact ⟨rest, further, rfl⟩

theorem replaceEscapes_backslash {c : CodePoint} {t v : Text}
    (replaced : replaceEscapes 0 (CodePoint.ofChar '\\' :: c :: t) = .ok v) :
    ∃ meaning width rest, readEscape c t = .ok (meaning, width) ∧
      replaceEscapes 0 ((c :: t).drop width) = .ok rest ∧ v = meaning ++ rest := by
  simp only [replaceEscapes, if_true] at replaced
  split at replaced
  · cases replaced
  next meaning width escape =>
    rw [replaceEscapes_skip] at replaced
    split at replaced
    · cases replaced
    next rest further =>
      cases replaced
      exact ⟨meaning, width, rest, escape, further, rfl⟩

theorem head?_replaceEscapes_brace {t v : Text}
    (opened : t.head? = some (CodePoint.ofChar '\x7b')) (replaced : replaceEscapes 0 t = .ok v) :
    v.head? = some (CodePoint.ofChar '\x7b') := by
  obtain ⟨rest, rfl⟩ := List.head?_eq_some_iff.1 opened
  obtain ⟨rest, _, rfl⟩ := replaceEscapes_cons (by decide) replaced
  rfl

/-- No escape hides an interpolation mark. -/
theorem interpolation_infix_replaceEscapes {t v : Text} (replaced : replaceEscapes 0 t = .ok v)
    (held : interpolation <:+: t) : interpolation <:+: v := by
  -- On the length, as an escape takes any number of code points off.
  induction measure : t.length using Nat.strongRecOn generalizing t v with
  | ind n ih =>
    subst measure
    cases t with
    | nil => simp [interpolation] at held
    | cons c t =>
      rw [interpolation_infix_cons_iff] at held
      by_cases backslash : c = CodePoint.ofChar '\\'
      · subst backslash
        rcases held with ⟨absent, _⟩ | later
        · exact absurd absent (by decide)
        · cases t with
          | nil => simp [interpolation] at later
          | cons e t =>
            obtain ⟨meaning, width, rest, escape, further, rfl⟩ := replaceEscapes_backslash replaced
            -- The mark starts in the escape, as an escaped `$`, or lies behind it.
            by_cases inside : CodePoint.ofChar '$' ∈ (e :: t).take width
            · obtain ⟨rfl, rfl, rfl⟩ := readEscape_of_dollar_mem escape inside
              rw [List.drop_succ_cons, List.drop_zero] at further
              rw [interpolation_infix_cons_iff] at later
              rw [List.singleton_append, interpolation_infix_cons_iff]
              rcases later with ⟨_, opened⟩ | behind
              · exact .inl ⟨rfl, head?_replaceEscapes_brace opened further⟩
              · exact .inr (ih _ (by simp only [List.length_cons]; omega) further behind rfl)
            · rw [← List.take_append_drop width (e :: t)] at later
              have behind := interpolation_infix_of_append inside later
              have shorter : ((e :: t).drop width).length <
                  (CodePoint.ofChar '\\' :: e :: t).length := by
                simp only [List.length_drop, List.length_cons]
                omega
              exact (ih _ shorter further behind rfl).trans (List.suffix_append _ _).isInfix
      · obtain ⟨rest, further, rfl⟩ := replaceEscapes_cons backslash replaced
        rw [interpolation_infix_cons_iff]
        rcases held with ⟨dollar, opened⟩ | later
        · exact .inl ⟨dollar, head?_replaceEscapes_brace opened further⟩
        · exact .inr (ih _ (by simp only [List.length_cons]; omega) further later rfl)

theorem interpolation_infix_joinSurrogates {t : Text} (held : interpolation <:+: t) :
    interpolation <:+: joinSurrogates t := by
  fun_induction joinSurrogates t with
  | case1 => exact held
  | case2 c =>
    rw [interpolation_infix_cons_iff] at held
    simp [interpolation] at held
  | case3 c e t pair ih =>
    rw [Bool.and_eq_true] at pair
    rw [interpolation_infix_cons_iff, interpolation_infix_cons_iff] at held
    -- A pair holds neither code point of the mark.
    rcases held with ⟨rfl, _⟩ | ⟨rfl, _⟩ | later
    · exact absurd pair.1 (by decide)
    · exact absurd pair.2 (by decide)
    · exact (ih later).trans (List.suffix_cons _ _).isInfix
  | case4 c e t _ ih =>
    rw [interpolation_infix_cons_iff] at held ⊢
    rcases held with ⟨rfl, opened⟩ | later
    · simp only [List.head?_cons, Option.some.injEq] at opened
      subst opened
      refine .inl ⟨by decide, ?_⟩
      cases t with
      | nil => decide
      | cons f t =>
        have low : ((CodePoint.ofChar '\x7b').isHighSurrogate && f.isLowSurrogate) = false := by
          rw [show (CodePoint.ofChar '\x7b').isHighSurrogate = false by decide, Bool.false_and]
        simp only [joinSurrogates, low, Bool.false_eq_true, if_false, List.head?_cons]
        decide
    · exact .inr (ih later)

/-- An interpolation mark in a body is one in the text that it spells. -/
theorem interpolation_infix_decode {body t : Text} (decoded : decode body = .ok t)
    (held : interpolation <:+: body) : interpolation <:+: t := by
  unfold decode at decoded
  split at decoded
  · cases decoded
  next replaced =>
    cases decoded
    exact interpolation_infix_joinSurrogates (interpolation_infix_replaceEscapes replaced held)

end Arabize.Script.Literal
