import Arabize.Proofs.Script.Literal
import Arabize.Proofs.Text.Search
import Arabize.Script.Candidate

/-! # What a literal is written with

The body of a literal is a row of marks: a code point that stands for itself, or a backslash
with the code point behind it.  `spelling` gives the marks that a text is written with in its
quotes, and they are all that is needed to know the body: it holds no bare quote, no bare line
break where a line has to go on, and no bare interpolation mark, and every mark is read as the
code point that it was written for (`encode_faithful`).
-/

namespace Arabize.Script.Literal

open Utf8 (Encodable)

/-! ## Marks -/

inductive Mark
  /-- A code point that stands for itself. -/
  | plain (c : CodePoint)
  /-- A backslash and the code point behind it. -/
  | escaped (c : CodePoint)
  deriving DecidableEq, Repr

def Mark.text : Mark → Text
  | .plain c => [c]
  | .escaped c => ['\\', c]

/-- The marks of a body, from left to right; a backslash at its end is none. -/
def marks? : Text → Option (List Mark)
  | [] => some []
  | c :: t =>
    if c = '\\' then
      match t with
      | [] => none
      | d :: u => (marks? u).map (.escaped d :: ·)
    else (marks? t).map (.plain c :: ·)

/-- Marks are read back from their text unless one of them is a bare backslash. -/
theorem marks?_flatMap_text {marks : List Mark} (free : .plain '\\' ∉ marks) :
    marks? (marks.flatMap Mark.text) = some marks := by
  induction marks with
  | nil => rfl
  | cons mark marks ih =>
    rw [List.mem_cons, not_or] at free
    rw [List.flatMap_cons]
    cases mark with
    | plain c =>
      have plain : c ≠ CodePoint.ofChar '\\' := fun same => free.1 (same ▸ rfl)
      rw [Mark.text, List.singleton_append, marks?.eq_def]
      simp only [if_neg plain, ih free.2, Option.map_some]
    | escaped c =>
      rw [Mark.text, List.cons_append, List.singleton_append, marks?]
      simp only [if_true, ih free.2, Option.map_some]

/-! ## Spellings -/

/-- The mark that a code point is written with, given the one behind it. -/
def markOf (quote c : CodePoint) (next : Option CodePoint) : Mark :=
  if c = '\\' ∨ c = quote then .escaped c
  else if quote = '`' then
    if c = '$' ∧ next = some (CodePoint.ofChar '\x7b') then .escaped c else .plain c
  else if c = '\n' then .escaped 'n'
  else if c = '\r' then .escaped 'r'
  else .plain c

/-- The marks that a text is written with in its quotes. -/
def spelling (quote : CodePoint) : Text → List Mark
  | [] => []
  | c :: t => markOf quote c t.head? :: spelling quote t

/-- The quotes that a literal can stand in. -/
def quotes : List CodePoint := ['"', '\'', '`']

theorem substitute_cons (c e : CodePoint) (new t : Text) :
    substitute c new (e :: t) = (if e = c then new else [e]) ++ substitute c new t :=
  List.flatMap_cons

theorem substitute_append (c : CodePoint) (new s t : Text) :
    substitute c new (s ++ t) = substitute c new s ++ substitute c new t :=
  List.flatMap_append

/-- In quotes that end at a line break, a code point is spelled by substitutions alone. -/
theorem substitute_eq_text {quote : CodePoint} (line : quote = '"' ∨ quote = '\'')
    (c : CodePoint) (next : Option CodePoint) :
    substitute '\r' "\\r" (substitute '\n' "\\n" (substitute quote ['\\', quote]
      (if c = CodePoint.ofChar '\\' then "\\\\" else [c]))) = (markOf quote c next).text := by
  have other : quote ≠ CodePoint.ofChar '\\' ∧ quote ≠ CodePoint.ofChar '`' ∧
      quote ≠ CodePoint.ofChar '\n' ∧ quote ≠ CodePoint.ofChar '\r' := by
    rcases line with rfl | rfl <;> decide
  obtain ⟨notBackslash, notTick, notFeed, notReturn⟩ := other
  unfold markOf
  by_cases backslash : c = CodePoint.ofChar '\\'
  · subst backslash
    rcases line with rfl | rfl <;> rfl
  · by_cases same : c = quote
    · subst same
      rcases line with rfl | rfl <;> rfl
    · simp only [if_neg notTick, backslash, same, or_self, if_false]
      by_cases feed : c = CodePoint.ofChar '\n'
      · subst feed
        rcases line with rfl | rfl <;> decide
      · by_cases ret : c = CodePoint.ofChar '\r'
        · subst ret
          rcases line with rfl | rfl <;> decide
        · simp [substitute, same, feed, ret, Mark.text]

theorem substitute_eq_spelling {quote : CodePoint} (line : quote = '"' ∨ quote = '\'') (t : Text) :
    substitute '\r' "\\r" (substitute '\n' "\\n"
      (substitute quote ['\\', quote] (substitute '\\' "\\\\" t))) =
      (spelling quote t).flatMap Mark.text := by
  induction t with
  | nil => rfl
  | cons c t ih =>
    rw [substitute_cons, substitute_append, substitute_append, substitute_append, ih,
      substitute_eq_text line c t.head?, spelling, List.flatMap_cons]

/-- A template before its interpolation marks are escaped. -/
def inTicks (t : Text) : Text := substitute '`' ['\\', '`'] (substitute '\\' "\\\\" t)

theorem inTicks_cons (c : CodePoint) (t : Text) :
    inTicks (c :: t) =
      (if c = CodePoint.ofChar '\\' ∨ c = CodePoint.ofChar '`' then [CodePoint.ofChar '\\', c]
        else [c]) ++ inTicks t := by
  rw [inTicks, substitute_cons, substitute_append, ← inTicks]
  by_cases backslash : c = CodePoint.ofChar '\\'
  · subst backslash
    rfl
  · by_cases tick : c = CodePoint.ofChar '`'
    · subst tick
      rfl
    · simp [substitute, backslash, tick]

theorem head?_inTicks_iff (t : Text) :
    (inTicks t).head? = some (CodePoint.ofChar '\x7b') ↔
      t.head? = some (CodePoint.ofChar '\x7b') := by
  cases t with
  | nil => rfl
  | cons c t =>
    rw [inTicks_cons]
    split
    next special =>
      change some (CodePoint.ofChar '\\') = some (CodePoint.ofChar '\x7b') ↔
        some c = some (CodePoint.ofChar '\x7b')
      rcases special with rfl | rfl <;> decide
    next => rfl

theorem startsWith_interpolation_iff (c : CodePoint) (t : Text) :
    Text.startsWith (c :: t) interpolation = true ↔
      c = CodePoint.ofChar '$' ∧ t.head? = some (CodePoint.ofChar '\x7b') := by
  rw [Text.startsWith_iff]
  cases t with
  | nil => simp [interpolation]
  | cons e t => simp [interpolation, List.cons_prefix_cons, eq_comm]

theorem replaceAllFrom_interpolation_cons (new : Text) {c : CodePoint} {t : Text}
    (bare : ¬ (c = CodePoint.ofChar '$' ∧ t.head? = some (CodePoint.ofChar '\x7b'))) :
    Text.replaceAllFrom interpolation new 0 (c :: t) =
      c :: Text.replaceAllFrom interpolation new 0 t := by
  rw [← startsWith_interpolation_iff] at bare
  rw [Text.replaceAllFrom, if_neg bare]

/-- In ticks, an interpolation mark is escaped as well. -/
theorem replaceAll_eq_spelling (t : Text) :
    Text.replaceAll (inTicks t) interpolation (CodePoint.ofChar '\\' :: interpolation) =
      (spelling '`' t).flatMap Mark.text := by
  unfold Text.replaceAll
  induction t with
  | nil => rfl
  | cons c t ih =>
    rw [spelling, List.flatMap_cons, ← ih, inTicks_cons]
    unfold markOf
    by_cases special : c = CodePoint.ofChar '\\' ∨ c = CodePoint.ofChar '`'
    · have notDollar : c ≠ CodePoint.ofChar '$' := by
        rcases special with rfl | rfl <;> decide
      rw [if_pos special, if_pos special, List.cons_append, List.singleton_append,
        replaceAllFrom_interpolation_cons _ (fun here => absurd here.1 (by decide)),
        replaceAllFrom_interpolation_cons _ (fun here => notDollar here.1)]
      rfl
    · rw [if_neg special, if_neg special, if_pos rfl, List.singleton_append]
      by_cases mark : c = CodePoint.ofChar '$' ∧ t.head? = some (CodePoint.ofChar '\x7b')
      · obtain ⟨rfl, opened⟩ := mark
        obtain ⟨rest, rfl⟩ := List.head?_eq_some_iff.1 opened
        have brace : inTicks (CodePoint.ofChar '\x7b' :: rest) =
            CodePoint.ofChar '\x7b' :: inTicks rest := inTicks_cons _ _
        -- The brace is passed over with its `$`, and stays as it is on its own.
        have kept := replaceAllFrom_interpolation_cons (CodePoint.ofChar '\\' :: interpolation)
          (t := inTicks rest) (fun here => absurd here.1 (by decide :
            CodePoint.ofChar '\x7b' ≠ CodePoint.ofChar '$'))
        rw [brace, if_pos ⟨rfl, rfl⟩, kept]
        rfl
      · rw [if_neg mark, replaceAllFrom_interpolation_cons _ (fun here => mark
          ⟨here.1, (head?_inTicks_iff t).1 here.2⟩)]
        rfl

/-- A text in quotes is its spelling between them. -/
theorem encode_eq_spelling {quote : CodePoint} (isQuote : quote ∈ quotes) (t : Text) :
    encode quote t = quote :: ((spelling quote t).flatMap Mark.text ++ [quote]) := by
  simp only [quotes, List.mem_cons, List.not_mem_nil, or_false, ← or_assoc] at isQuote
  rcases isQuote with line | rfl
  · have notTick : quote ≠ CodePoint.ofChar '`' := by
      rcases line with rfl | rfl <;> decide
    simp only [encode, if_neg notTick, substitute_eq_spelling line]
    rfl
  · rw [← replaceAll_eq_spelling]
    rfl

/-! ## What the marks stand for -/

/-- An escape that is no number and no line break. -/
def Simple (e : CodePoint) : Prop :=
  e ≠ CodePoint.ofChar 'u' ∧ e ≠ CodePoint.ofChar 'x' ∧ e.val ≠ 0x0D

instance (e : CodePoint) : Decidable (Simple e) :=
  inferInstanceAs (Decidable (_ ∧ _ ∧ _))

theorem readEscape_of_simple {e : CodePoint} (simple : Simple e) (t : Text) :
    readEscape e t = .ok (simpleEscape e, 1) := by
  obtain ⟨notU, notX, notReturn⟩ := simple
  rw [readEscape, if_neg notU, if_neg notX, if_neg fun lineEnd => notReturn lineEnd.1]

/-- A code point is written as it is, where that cannot be misread, or by an escape that stands
    for it. -/
theorem markOf_cases {quote : CodePoint} (isQuote : quote ∈ quotes) (c : CodePoint)
    (next : Option CodePoint) :
    (markOf quote c next = .plain c ∧ c ≠ CodePoint.ofChar '\\' ∧ c ≠ quote ∧
      (quote ≠ CodePoint.ofChar '`' →
        c ≠ CodePoint.ofChar '\n' ∧ c ≠ CodePoint.ofChar '\r') ∧
      (quote = CodePoint.ofChar '`' →
        ¬ (c = CodePoint.ofChar '$' ∧ next = some (CodePoint.ofChar '\x7b')))) ∨
    ∃ e, markOf quote c next = .escaped e ∧ Simple e ∧ simpleEscape e = [c] := by
  unfold markOf
  by_cases special : c = CodePoint.ofChar '\\' ∨ c = quote
  · refine .inr ⟨c, if_pos special, ?_⟩
    rcases special with rfl | rfl
    · decide
    · simp only [quotes, List.mem_cons, List.not_mem_nil, or_false] at isQuote
      rcases isQuote with rfl | rfl | rfl <;> decide
  · rw [if_neg special]
    obtain ⟨notBackslash, notQuote⟩ := not_or.1 special
    by_cases tick : quote = CodePoint.ofChar '`'
    · rw [if_pos tick]
      by_cases mark : c = CodePoint.ofChar '$' ∧ next = some (CodePoint.ofChar '\x7b')
      · refine .inr ⟨c, if_pos mark, ?_⟩
        obtain ⟨rfl, _⟩ := mark
        decide
      · exact .inl ⟨if_neg mark, notBackslash, notQuote, (absurd tick ·), fun _ => mark⟩
    · rw [if_neg tick]
      by_cases feed : c = CodePoint.ofChar '\n'
      · subst feed
        exact .inr ⟨CodePoint.ofChar 'n', rfl, by decide⟩
      · rw [if_neg feed]
        by_cases ret : c = CodePoint.ofChar '\r'
        · subst ret
          exact .inr ⟨CodePoint.ofChar 'r', rfl, by decide⟩
        · exact .inl ⟨if_neg ret, notBackslash, notQuote, fun _ => ⟨feed, ret⟩, (absurd · tick)⟩

/-- A mark is read as the code point that it was written for. -/
theorem replaceEscapes_markOf {quote : CodePoint} (isQuote : quote ∈ quotes) (c : CodePoint)
    (next : Option CodePoint) {t v : Text} (behind : replaceEscapes 0 t = .ok v) :
    replaceEscapes 0 ((markOf quote c next).text ++ t) = .ok (c :: v) := by
  rcases markOf_cases isQuote c next with ⟨plain, notBackslash, _⟩ | ⟨e, escaped, simple, meaning⟩
  · rw [plain, Mark.text, List.singleton_append, replaceEscapes.eq_def]
    simp only [if_neg notBackslash, behind]
  · rw [escaped, Mark.text, List.cons_append, List.singleton_append, replaceEscapes.eq_def]
    simp only [if_true, readEscape_of_simple simple, replaceEscapes_skip 1, List.drop_succ_cons,
      List.drop_zero, behind, meaning, List.singleton_append]

theorem replaceEscapes_spelling {quote : CodePoint} (isQuote : quote ∈ quotes) (t : Text) :
    replaceEscapes 0 ((spelling quote t).flatMap Mark.text) = .ok t := by
  induction t with
  | nil => rfl
  | cons c t ih => exact replaceEscapes_markOf isQuote c t.head? ih

theorem isHighSurrogate_eq_false {c : CodePoint} (plain : c.isSurrogate = false) :
    c.isHighSurrogate = false := by
  rw [Utf8.isSurrogate_eq_false_iff] at plain
  simp only [CodePoint.isHighSurrogate, Bool.and_eq_false_iff, decide_eq_false_iff_not]
  omega

theorem joinSurrogates_of_encodable {t : Text} (encodable : Encodable t) :
    joinSurrogates t = t := by
  fun_induction joinSurrogates t with
  | case1 => rfl
  | case2 c => simp [replaceLone, (Utf8.encodable_cons.1 encodable).1]
  | case3 c e t pair _ =>
    rw [isHighSurrogate_eq_false (Utf8.encodable_cons.1 encodable).1] at pair
    cases pair
  | case4 c e t _ ih =>
    obtain ⟨plain, behind⟩ := Utf8.encodable_cons.1 encodable
    simp [replaceLone, plain, ih behind]

theorem decode_spelling {quote : CodePoint} (isQuote : quote ∈ quotes) {t : Text}
    (encodable : Encodable t) : decode ((spelling quote t).flatMap Mark.text) = .ok t := by
  rw [decode, replaceEscapes_spelling isQuote]
  exact congrArg Except.ok (joinSurrogates_of_encodable encodable)

/-! ## The body of a literal -/

theorem plain_mem_spelling {quote c : CodePoint} (isQuote : quote ∈ quotes) {t : Text}
    (member : .plain c ∈ spelling quote t) :
    c ≠ CodePoint.ofChar '\\' ∧ c ≠ quote ∧ (quote ≠ CodePoint.ofChar '`' →
      c ≠ CodePoint.ofChar '\n' ∧ c ≠ CodePoint.ofChar '\r') := by
  induction t with
  | nil => cases member
  | cons e t ih =>
    rw [spelling, List.mem_cons] at member
    rcases member with here | later
    · rcases markOf_cases isQuote e t.head? with ⟨plain, facts⟩ | ⟨_, escaped, _⟩
      · rw [plain, Mark.plain.injEq] at here
        subst here
        exact ⟨facts.1, facts.2.1, facts.2.2.1⟩
      · rw [escaped] at here
        cases here
    · exact ih later

/-- The mark of a code point is plain only for that code point. -/
theorem eq_of_markOf_eq_plain {quote c e : CodePoint} {next : Option CodePoint}
    (isQuote : quote ∈ quotes) (plain : markOf quote c next = .plain e) : c = e := by
  rcases markOf_cases isQuote c next with ⟨same, _⟩ | ⟨_, escaped, _⟩
  · rw [same] at plain
    exact Mark.plain.inj plain
  · rw [escaped] at plain
    cases plain

/-- No bare interpolation mark is written in ticks. -/
theorem interpolation_not_infix_spelling (t : Text) :
    ¬ interpolation.map Mark.plain <:+: spelling '`' t := by
  have isQuote : CodePoint.ofChar '`' ∈ quotes := by decide
  induction t with
  | nil => simp [spelling, interpolation]
  | cons c t ih =>
    rw [spelling, List.infix_cons_iff, not_or]
    refine ⟨fun atStart => ?_, ih⟩
    obtain ⟨dollar, behind⟩ := List.cons_prefix_cons.1 atStart
    cases t with
    | nil => simp [spelling] at behind
    | cons e t =>
      obtain ⟨brace, _⟩ := List.cons_prefix_cons.1 behind
      obtain rfl := eq_of_markOf_eq_plain isQuote dollar.symm
      obtain rfl := eq_of_markOf_eq_plain isQuote brace.symm
      cases dollar

theorem body_encode {quote : CodePoint} (isQuote : quote ∈ quotes) (t : Text) :
    body (encode quote t) = (spelling quote t).flatMap Mark.text := by
  rw [body, encode_eq_spelling isQuote, List.drop_succ_cons, List.drop_zero, List.dropLast_concat]

/-- A text without surrogates is a valid literal in each kind of quotes, and is read back from
    it.  The body of the literal is a row of marks without a bare quote; in quotes that end at a
    line break none of them is a bare line break, and in ticks no two of them are a bare
    interpolation mark. -/
theorem encode_faithful {quote : CodePoint} (isQuote : quote ∈ quotes) {t : Text}
    (encodable : Encodable t) :
    ∃ marks,
      encode quote t = quote :: (body (encode quote t) ++ [quote]) ∧
      marks? (body (encode quote t)) = some marks ∧
      .plain quote ∉ marks ∧
      (quote ≠ CodePoint.ofChar '`' → .plain '\n' ∉ marks ∧ .plain '\r' ∉ marks) ∧
      (quote = CodePoint.ofChar '`' → ¬ [.plain '$', .plain '\x7b'] <:+: marks) ∧
      decode (body (encode quote t)) = .ok t := by
  refine ⟨spelling quote t, ?_, ?_, fun bare => ?_, fun line => ⟨fun bare => ?_, fun bare => ?_⟩,
    fun tick => ?_, ?_⟩
  · rw [body_encode isQuote, encode_eq_spelling isQuote]
  · rw [body_encode isQuote]
    exact marks?_flatMap_text fun bare => (plain_mem_spelling isQuote bare).1 rfl
  · exact (plain_mem_spelling isQuote bare).2.1 rfl
  · exact ((plain_mem_spelling isQuote bare).2.2 line).1 rfl
  · exact ((plain_mem_spelling isQuote bare).2.2 line).2 rfl
  · subst tick
    exact interpolation_not_infix_spelling t
  · rw [body_encode isQuote, decode_spelling isQuote encodable]

/-- A backslash before an interpolation mark and a tick, and a line break. -/
theorem encode_faithful_template :
    let quote : CodePoint := '`'
    let t : Text := "\\$\x7b`\n\\u"
    quote ∈ quotes ∧ Encodable t ∧
    ∃ marks,
      encode quote t = quote :: (body (encode quote t) ++ [quote]) ∧
      marks? (body (encode quote t)) = some marks ∧
      .plain quote ∉ marks ∧
      (quote ≠ CodePoint.ofChar '`' → .plain '\n' ∉ marks ∧ .plain '\r' ∉ marks) ∧
      (quote = CodePoint.ofChar '`' → ¬ [.plain '$', .plain '\x7b'] <:+: marks) ∧
      decode (body (encode quote t)) = .ok t := by
  intro quote t
  have isQuote : quote ∈ quotes := by decide
  have encodable : Encodable t := by decide
  exact ⟨isQuote, encodable, encode_faithful isQuote encodable⟩

end Arabize.Script.Literal
