import Arabize.Proofs.Json.Reading
import Arabize.Proofs.Text.Escapes
import Arabize.Proofs.Text.Search
import Mathlib.Data.List.Forall2

/-! # The spellings of a value

A value has many texts: its strings may hold escapes, and blanks may stand between its parts.
The grammar here is put together from what a string is (`SpellsText`), and from what an array and
an object are, given what their parts are (`SpellsArray`, `SpellsObject`).  Whatever it allows as
the text of a value is read as that value: for each kind of value that is one lemma
(`reads_string`, `reads_array`, `reads_object`), which holds of values in values by composition.
-/

namespace Arabize.Json

open Text (Hexadecimal)

/-! ## Strings -/

/-- The letters of short escapes, and what they stand for. -/
def shortEscapes : List (CodePoint × CodePoint) :=
  [('"', '"'), ('\\', '\\'), ('/', '/'), ('b', 0x08), ('f', 0x0C), ('n', 0x0A), ('r', 0x0D),
    ('t', 0x09)]

/-- The escape of a code point by its four digits. -/
def WideEscape (c : CodePoint) (t : Text) : Prop :=
  ∃ digits, t = CodePoint.ofChar '\\' :: CodePoint.ofChar 'u' :: digits ∧
    Hexadecimal digits c.val ∧ digits.length = 4

/-- An escaped lower half of a surrogate pair comes first. -/
def OpensLow (body : Text) : Prop :=
  ∃ c t rest, body = t ++ rest ∧ WideEscape c t ∧ c.isLowSurrogate = true

/-- What may stand between quotes for a text. -/
inductive SpellsBody : Text → Text → Prop
  | nil : SpellsBody [] []
  | plain {c : CodePoint} {s b : Text} : c ≠ '"' → c ≠ '\\' → 0x20 ≤ c.val →
      SpellsBody s b → SpellsBody (c :: s) (c :: b)
  | short {e c : CodePoint} {s b : Text} : (e, c) ∈ shortEscapes →
      SpellsBody s b → SpellsBody (c :: s) ('\\' :: e :: b)
  /-- An upper half of a pair that an escaped lower half follows would be taken with it. -/
  | wide {c : CodePoint} {t s b : Text} : WideEscape c t →
      (c.isHighSurrogate = true → ¬ OpensLow b) →
      SpellsBody s b → SpellsBody (c :: s) (t ++ b)
  | pair {c : CodePoint} {t u s b : Text} : 0xFFFF < c.val → WideEscape c.upperHalf t →
      WideEscape c.lowerHalf u → SpellsBody s b → SpellsBody (c :: s) (t ++ (u ++ b))

def SpellsText (k q : Text) : Prop :=
  ∃ body, SpellsBody k body ∧ q = CodePoint.ofChar '"' :: (body ++ [CodePoint.ofChar '"'])

/-! ## Values -/

/-- The texts of one part after the other, with commas between them. -/
inductive Listed {α : Type} (part : α → Text → Prop) : List α → Text → Prop
  | last {x : α} {t before : Text} : part x t → Spaces before → Listed part [x] (t ++ before)
  | more {x : α} {xs : List α} {t u before behind : Text} : part x t → Spaces before →
      Spaces behind → Listed part xs u →
      Listed part (x :: xs) (t ++ (before ++ CodePoint.ofChar ',' :: (behind ++ u)))

/-- The texts of parts between two brackets. -/
inductive Enclosed {α : Type} (opening closing : CodePoint) (part : α → Text → Prop) :
    List α → Text → Prop
  | empty {before : Text} : Spaces before →
      Enclosed opening closing part [] (opening :: (before ++ [closing]))
  | filled {before u : Text} {xs : List α} : Spaces before → Listed part xs u →
      Enclosed opening closing part xs (opening :: (before ++ (u ++ [closing])))

/-- The text of a field: its key, a colon and its value. -/
inductive SpellsField (value : Json → Text → Prop) : Text × Json → Text → Prop
  | field {k q t before behind : Text} {v : Json} : SpellsText k q → Spaces before →
      Spaces behind → value v t →
      SpellsField value (k, v) (q ++ (before ++ CodePoint.ofChar ':' :: behind) ++ t)

def SpellsString (j : Json) (t : Text) : Prop := ∃ k, j = .str k ∧ SpellsText k t

def SpellsArray (item : Json → Text → Prop) (j : Json) (t : Text) : Prop :=
  ∃ xs, j = .arr xs ∧ Enclosed '[' ']' item xs t

/-- Of a key that comes again, the last value counts. -/
def SpellsObject (value : Json → Text → Prop) (j : Json) (t : Text) : Prop :=
  ∃ fs, j = .obj (Mapping.ofPairs fs) ∧ Enclosed '\x7b' '\x7d' (SpellsField value) fs t

variable {c d : CodePoint} {k q s t u b body digits rest : Text} {fuel n : Nat}

section

variable {α β : Type} {part : α → Text → Prop} {value : β → Text → Prop} {R : α → β → Prop}
  {xs : List α}

/-- Where each part is spelled as another one is, the list is spelled as one of the others. -/
theorem listed_values (step : ∀ x t, part x t → ∃ y, R x y ∧ value y t)
    (listed : Listed part xs t) : ∃ ys, List.Forall₂ R xs ys ∧ Listed value ys t := by
  induction listed with
  | last here spaces =>
    obtain ⟨y, related, spelled⟩ := step _ _ here
    exact ⟨[y], .cons related .nil, .last spelled spaces⟩
  | more here spaces further _ ih =>
    obtain ⟨y, related, spelled⟩ := step _ _ here
    obtain ⟨ys, all, others⟩ := ih
    exact ⟨y :: ys, .cons related all, .more spelled spaces further others⟩

theorem enclosed_values {opening closing : CodePoint}
    (step : ∀ x t, part x t → ∃ y, R x y ∧ value y t)
    (enclosed : Enclosed opening closing part xs t) :
    ∃ ys, List.Forall₂ R xs ys ∧ Enclosed opening closing value ys t := by
  cases enclosed with
  | empty spaces => exact ⟨[], .nil, .empty spaces⟩
  | filled spaces listed =>
    obtain ⟨ys, all, others⟩ := listed_values step listed
    exact ⟨ys, all, .filled spaces others⟩

end

/-! ## Reading escapes -/

/-- A text without quotes, backslashes and controls spells itself. -/
theorem spellsText_plain (plain : (k.all fun c =>
      decide (c ≠ CodePoint.ofChar '"' ∧ c ≠ CodePoint.ofChar '\\' ∧ 0x20 ≤ c.val)) = true) :
    SpellsText k (CodePoint.ofChar '"' :: (k ++ [CodePoint.ofChar '"'])) := by
  refine ⟨k, ?_, rfl⟩
  induction k with
  | nil => exact .nil
  | cons c k ih =>
    rw [List.all_cons, Bool.and_eq_true] at plain
    obtain ⟨quote, backslash, visible⟩ := of_decide_eq_true plain.1
    exact .plain quote backslash visible (ih plain.2)

theorem hex4?_of_hexadecimal (hex : Hexadecimal digits n) (four : digits.length = 4) (t : Text) :
    hex4? (digits ++ t) = some n := by
  obtain ⟨_, all, value⟩ := hex
  match digits, four with
  | [p, q, r, s], _ =>
    simp only [List.all_cons, List.all_nil, Bool.and_true, Bool.and_eq_true,
      Option.isSome_iff_exists] at all
    obtain ⟨⟨a, first⟩, ⟨b, second⟩, ⟨c, third⟩, ⟨d, last⟩⟩ := all
    rw [← value]
    simp [hex4?, Text.hexValue, first, second, third, last]

theorem unescape?_of_mem {e : CodePoint} (listed : (e, c) ∈ shortEscapes) :
    e ≠ CodePoint.ofChar 'u' ∧ unescape? e = some c := by
  have all : (shortEscapes.all fun row =>
      decide (row.1 ≠ CodePoint.ofChar 'u' ∧ unescape? row.1 = some row.2)) = true := by decide
  exact of_decide_eq_true (List.all_eq_true.1 all _ listed)

/-- Behind a backslash and a `u` stand the digits of a code point. -/
theorem wideEscape_of_startsWith (spells : SpellsBody s b)
    (escape : Text.startsWith (b ++ CodePoint.ofChar '"' :: rest) "\\u" = true) :
    ∃ c t u, b = t ++ u ∧ WideEscape c t := by
  rw [Text.startsWith_iff] at escape
  cases spells with
  | nil => exact absurd (List.cons_prefix_cons.1 escape).1 (by decide)
  | plain _ bare => exact absurd (List.cons_prefix_cons.1 escape).1.symm bare
  | short listed =>
    have letter := (List.cons_prefix_cons.1 (List.cons_prefix_cons.1 escape).2).1
    exact absurd letter.symm (unescape?_of_mem listed).1
  | wide digits => exact ⟨_, _, _, rfl, digits⟩
  | pair _ high => exact ⟨_, _, _, rfl, high⟩

theorem hex4?_drop (escape : WideEscape c t) (u : Text) :
    hex4? ((t ++ u).drop 2) = some c.val := by
  obtain ⟨digits, rfl, hex, four⟩ := escape
  exact hex4?_of_hexadecimal hex four u

theorem WideEscape.length_eq (escape : WideEscape c t) : t.length = 6 := by
  obtain ⟨digits, rfl, _, four⟩ := escape
  rw [List.length_cons, List.length_cons, four]

theorem WideEscape.startsWith (escape : WideEscape c t) (u : Text) :
    Text.startsWith (t ++ u) "\\u" = true := by
  obtain ⟨digits, rfl, _, _⟩ := escape
  have mark : (Text.ofString "\\u") = [CodePoint.ofChar '\\', CodePoint.ofChar 'u'] := by decide
  rw [Text.startsWith_iff, mark]
  exact ⟨digits ++ u, rfl⟩

/-- A code point by itself, if it is no upper half that a lower half follows. -/
theorem readUnicodeEscape_single (hex : Hexadecimal digits c.val) (four : digits.length = 4)
    (spells : SpellsBody s b) (alone : c.isHighSurrogate = true → ¬ OpensLow b) (n : Nat)
    (rest : Text) :
    readUnicodeEscape (digits ++ (b ++ CodePoint.ofChar '"' :: rest)) n = .ok (c, 4) := by
  have long : ¬ (digits ++ (b ++ CodePoint.ofChar '"' :: rest)).length ≤ 4 := by
    simp only [List.length_append, List.length_cons]
    omega
  have self : ∀ d : CodePoint, CodePoint.ofNat d.val = d := fun d => Utf8.codePoint_ofNat_eq rfl
  rw [readUnicodeEscape, if_neg long, hex4?_of_hexadecimal hex four]
  simp only [self, List.drop_left' four]
  split
  next further =>
    simp only [Bool.and_eq_true] at further
    obtain ⟨⟨high, _⟩, escape⟩ := further
    obtain ⟨d, t, u, rfl, second⟩ := wideEscape_of_startsWith spells escape
    have noLow : ¬ d.isLowSurrogate = true := fun low => alone high ⟨d, t, u, rfl, second, low⟩
    rw [List.append_assoc, hex4?_drop second]
    simp only [self, noLow, Bool.false_eq_true, if_false]
  next => rfl

/-- The two halves of a pair together. -/
theorem readUnicodeEscape_pair (past : 0xFFFF < c.val) (hex : Hexadecimal digits c.upperHalf.val)
    (four : digits.length = 4) (second : WideEscape c.lowerHalf u) (n : Nat) (filled : t ≠ []) :
    readUnicodeEscape (digits ++ (u ++ t)) n = .ok (c, 10) := by
  have width := second.length_eq
  have := List.length_pos_iff.2 filled
  have long : ¬ (digits ++ (u ++ t)).length ≤ 4 := by
    simp only [List.length_append]
    omega
  have further : (c.upperHalf.isHighSurrogate && decide (6 < (u ++ t).length)
      && Text.startsWith (u ++ t) "\\u") = true := by
    rw [c.isHighSurrogate_upperHalf, second.startsWith, List.length_append,
      decide_eq_true (by omega)]
    rfl
  have self : ∀ d : CodePoint, CodePoint.ofNat d.val = d := fun d => Utf8.codePoint_ofNat_eq rfl
  rw [readUnicodeEscape, if_neg long, hex4?_of_hexadecimal hex four]
  simp only [self, List.drop_left' four, further, if_true, hex4?_drop second,
    c.isLowSurrogate_lowerHalf]
  rw [show CodePoint.ofNat (joinPair c.upperHalf.val c.lowerHalf.val) = c from
    Utf8.codePoint_ofNat_eq (CodePoint.joined_halves past)]

/-! ## Reading strings -/

/-- What an escape with digits takes of a string. -/
theorem readString_escape {start width : Nat} {cur : Cursor}
    (escape : readUnicodeEscape (u ++ t) (n + 2) = .ok (c, width)) (all : u.length = width)
    (behind : readString start 0 (n + (width + 2)) t = .ok (s, cur)) :
    readString start 0 n (CodePoint.ofChar '\\' :: CodePoint.ofChar 'u' :: (u ++ t)) =
      .ok (c :: s, cur) := by
  have mark : CodePoint.ofChar '\\' ≠ CodePoint.ofChar '"' := by decide
  subst all
  have skipped : readString start (u.length + 1) (n + 1) (CodePoint.ofChar 'u' :: (u ++ t)) =
      .ok (s, cur) := by
    rw [← behind, show n + (u.length + 2) = n + 1 + (u.length + 1) by omega]
    exact readString_skip start (n + 1) (CodePoint.ofChar 'u' :: u) t
  rw [readString.eq_def]
  simp only [mark, if_false, if_true, escape, skipped]

/-- Whatever body a text is spelled by, it is read as that text, up to the closing quote. -/
theorem readString_of_spells (spells : SpellsBody s b) (start n : Nat) (rest : Text) :
    ∃ m, readString start 0 n (b ++ CodePoint.ofChar '"' :: rest) = .ok (s, ⟨rest, m⟩) := by
  have mark : CodePoint.ofChar '\\' ≠ CodePoint.ofChar '"' := by decide
  -- On the spelling: each piece of it is one step of the reader, at whatever offset it stands.
  induction spells generalizing n with
  | nil => exact ⟨n + 1, by rw [List.nil_append, readString.eq_def]; rfl⟩
  | plain quote backslash visible _ ih =>
    obtain ⟨m, behind⟩ := ih (n + 1)
    refine ⟨m, ?_⟩
    rw [List.cons_append, readString.eq_def]
    simp only [quote, backslash, Nat.not_lt.2 visible, if_false, behind]
  | @short e _ _ b listed _ ih =>
    obtain ⟨letter, read⟩ := unescape?_of_mem listed
    obtain ⟨m, behind⟩ := ih (n + 2)
    have skipped := readString_skip start (n + 1) [e] (b ++ CodePoint.ofChar '"' :: rest)
    rw [List.length_singleton, Nat.add_assoc, behind] at skipped
    refine ⟨m, ?_⟩
    rw [List.cons_append, List.cons_append, readString.eq_def]
    simp only [mark, if_false, if_true, letter, read]
    rw [show readString start 1 (n + 1) (e :: (b ++ CodePoint.ofChar '"' :: rest)) = _ from skipped]
  | wide digits alone spells ih =>
    obtain ⟨digits, rfl, hex, four⟩ := digits
    obtain ⟨m, behind⟩ := ih (n + (4 + 2))
    rw [List.append_assoc]
    exact ⟨m, readString_escape (readUnicodeEscape_single hex four spells alone _ rest) four behind⟩
  | @pair c t u s b past high low _ ih =>
    obtain ⟨digits, rfl, hex, four⟩ := high
    obtain ⟨m, behind⟩ := ih (n + (10 + 2))
    have escape := readUnicodeEscape_pair past hex four low (n + 2)
      (List.append_ne_nil_of_right_ne_nil b (List.cons_ne_nil (CodePoint.ofChar '"') rest))
    rw [← List.append_assoc] at escape
    have width : (digits ++ u).length = 10 := by rw [List.length_append, four, low.length_eq]
    simp only [List.cons_append, List.append_assoc]
    rw [← List.append_assoc digits]
    exact ⟨m, readString_escape escape width behind⟩

theorem quotes_of_spells (spells : SpellsText k q) : Quotes q k := by
  obtain ⟨body, spelled, rfl⟩ := spells
  exact ⟨body, rfl, readString_of_spells spelled⟩

/-! ## Reading values -/

/-- Each text that is allowed for a value is read as it, whatever stands behind the text. -/
structure Readable (value : Json → Text → Prop) : Prop where
  opens : ∀ {j t}, value j t → Opens t
  reads : ∀ {j t}, value j t → ∀ fuel n rest, t.length ≤ fuel →
    ∃ m, readValue fuel ⟨t ++ rest, n⟩ = .ok (j, ⟨rest, m⟩)

theorem opens_of_listed {α : Type} {part : α → Text → Prop} {xs : List α}
    (opens : ∀ {x t}, part x t → Opens t) (listed : Listed part xs u) : Opens u := by
  cases listed with
  | last here => exact (opens here).append _
  | more here => exact (opens here).append _

theorem readable_string : Readable SpellsString where
  opens := by
    rintro j t ⟨k, rfl, body, _, rfl⟩
    exact ⟨_, _, rfl, by decide⟩
  reads := by
    rintro j t ⟨k, rfl, spells⟩ fuel n rest enough
    have quotes := quotes_of_spells spells
    obtain ⟨body, _, rfl⟩ := spells
    obtain ⟨fuel, rfl⟩ := Nat.exists_eq_add_one.2 (Nat.lt_of_lt_of_le (Nat.succ_pos _) enough)
    exact readValue_quoted quotes fuel n rest

variable {value : Json → Text → Prop}

theorem readItems_of_listed (readable : Readable value) {xs : List Json}
    (listed : Listed value xs u) (seen : List Json) (fuel n : Nat) (rest : Text)
    (enough : u.length < fuel) :
    ∃ m, readItems fuel seen ⟨u ++ CodePoint.ofChar ']' :: rest, n⟩ =
      .ok (.arr (seen.reverse ++ xs), ⟨rest, m⟩) := by
  induction listed generalizing seen fuel n with
  | last here spaces =>
    rw [List.length_append] at enough
    obtain ⟨f, rfl⟩ := Nat.exists_eq_add_one.2 (Nat.zero_lt_of_lt enough)
    obtain ⟨m, read⟩ := readable.reads here f n (_ ++ CodePoint.ofChar ']' :: rest) (by omega)
    rw [List.append_assoc]
    exact readItems_last spaces read
  | @more x xs t u before behind here spaces further others ih =>
    simp only [List.length_append, List.length_cons] at enough
    obtain ⟨f, rfl⟩ := Nat.exists_eq_add_one.2 (Nat.zero_lt_of_lt enough)
    simp only [List.append_assoc, List.cons_append]
    obtain ⟨a, read⟩ := readable.reads here f n
      (before ++ CodePoint.ofChar ',' :: (behind ++ (u ++ CodePoint.ofChar ']' :: rest))) (by omega)
    obtain ⟨b, more⟩ := readItems_more seen spaces further
      ((opens_of_listed readable.opens others).append _) read
    obtain ⟨m, last⟩ := ih (x :: seen) f b (by omega)
    rw [List.reverse_cons, List.append_assoc, List.singleton_append] at last
    exact ⟨m, more.trans last⟩

theorem readable_array (readable : Readable value) : Readable (SpellsArray value) where
  opens := by
    rintro j t ⟨xs, rfl, enclosed⟩
    cases enclosed <;> exact ⟨_, _, rfl, by decide⟩
  reads := by
    rintro j t ⟨xs, rfl, enclosed⟩ fuel n rest enough
    cases enclosed with
    | empty spaces =>
      obtain ⟨fuel, rfl⟩ := Nat.exists_eq_add_one.2 (Nat.lt_of_lt_of_le (Nat.succ_pos _) enough)
      rw [List.cons_append, List.append_assoc]
      exact readValue_emptyArray spaces fuel n rest
    | @filled before u _ spaces listed =>
      simp only [List.length_append, List.length_cons] at enough
      obtain ⟨fuel, rfl⟩ := Nat.exists_eq_add_one.2 (show 0 < fuel by omega)
      obtain ⟨m, opened⟩ := readValue_array spaces
        ((opens_of_listed readable.opens listed).append (CodePoint.ofChar ']' :: rest)) fuel n
      simp only [List.cons_append, List.append_assoc, List.nil_append, opened]
      exact readItems_of_listed readable listed [] fuel m rest (by omega)

theorem SpellsField.exists_key {kv : Text × Json} (field : SpellsField value kv t) :
    ∃ key v, t = key ++ v ∧ KeyText key kv.1 ∧ value kv.2 v := by
  obtain ⟨key, spaces, further, v⟩ := field
  exact ⟨_, _, rfl, ⟨_, _, _, quotes_of_spells key, spaces, further, rfl⟩, v⟩

theorem SpellsField.opens {kv : Text × Json} (field : SpellsField value kv t) : Opens t := by
  obtain ⟨key, v, rfl, heads, _⟩ := field.exists_key
  exact heads.opens.append v

theorem readFields_of_listed (readable : Readable value) {fs : List (Text × Json)}
    (listed : Listed (SpellsField value) fs u) (seen : Mapping Json) (fuel n : Nat) (rest : Text)
    (enough : u.length < fuel) :
    ∃ m, readFields fuel seen ⟨u ++ CodePoint.ofChar '\x7d' :: rest, n⟩ =
      .ok (.obj (Mapping.update seen fs), ⟨rest, m⟩) := by
  induction listed generalizing seen fuel n with
  | @last kv t before here spaces =>
    obtain ⟨key, v, rfl, heads, value⟩ := here.exists_key
    simp only [List.length_append] at enough
    obtain ⟨f, rfl⟩ := Nat.exists_eq_add_one.2 (Nat.zero_lt_of_lt enough)
    simp only [List.append_assoc]
    exact readFields_last heads ((readable.opens value).append _) spaces
      (fun a => readable.reads value f a _ (by omega)) n
  | @more kv fs t u before behind here spaces further others ih =>
    obtain ⟨key, v, rfl, heads, value⟩ := here.exists_key
    simp only [List.length_append, List.length_cons] at enough
    obtain ⟨f, rfl⟩ := Nat.exists_eq_add_one.2 (Nat.zero_lt_of_lt enough)
    simp only [List.append_assoc, List.cons_append]
    obtain ⟨b, more⟩ := readFields_more seen heads ((readable.opens value).append _) spaces further
      ((opens_of_listed SpellsField.opens others).append (CodePoint.ofChar '\x7d' :: rest))
      (fun a => readable.reads value f a _ (by omega)) n
    obtain ⟨m, last⟩ := ih (Mapping.insert kv.1 kv.2 seen) f b (by omega)
    exact ⟨m, more.trans last⟩

theorem readable_object (readable : Readable value) : Readable (SpellsObject value) where
  opens := by
    rintro j t ⟨fs, rfl, enclosed⟩
    cases enclosed <;> exact ⟨_, _, rfl, by decide⟩
  reads := by
    rintro j t ⟨fs, rfl, enclosed⟩ fuel n rest enough
    cases enclosed with
    | empty spaces =>
      obtain ⟨fuel, rfl⟩ := Nat.exists_eq_add_one.2 (Nat.lt_of_lt_of_le (Nat.succ_pos _) enough)
      rw [List.cons_append, List.append_assoc]
      exact readValue_emptyObject spaces fuel n rest
    | @filled before u _ spaces listed =>
      simp only [List.length_append, List.length_cons] at enough
      obtain ⟨fuel, rfl⟩ := Nat.exists_eq_add_one.2 (show 0 < fuel by omega)
      have first : ∃ key k more, KeyText key k ∧ u = key ++ more := by
        cases listed with
        | last here | more here =>
          obtain ⟨key, v, rfl, heads, _⟩ := here.exists_key
          exact ⟨key, _, _, heads, List.append_assoc _ _ _⟩
      obtain ⟨key, k, more, heads, same⟩ := first
      obtain ⟨m, opened⟩ := readValue_object spaces heads
        (more ++ CodePoint.ofChar '\x7d' :: rest) fuel n
      rw [← List.append_assoc key, ← same] at opened
      simp only [List.cons_append, List.append_assoc, List.nil_append, opened]
      exact readFields_of_listed readable listed [] fuel m rest (by omega)

/-! ## Documents -/

/-- Blanks may stand at both ends of a document. -/
def SpellsDocument {α : Type} (whole : α → Text → Prop) (x : α) (doc : Text) : Prop :=
  ∃ before t behind, Spaces before ∧ Spaces behind ∧ whole x t ∧ doc = before ++ (t ++ behind)

theorem read_of_spells (readable : Readable value) {j : Json} {doc : Text}
    (spells : SpellsDocument value j doc) : read doc = .ok j := by
  obtain ⟨before, t, behind, spaces, further, here, same⟩ := spells
  exact read_document spaces further (readable.opens here) same fun fuel n =>
    readable.reads here fuel n behind

end Arabize.Json
