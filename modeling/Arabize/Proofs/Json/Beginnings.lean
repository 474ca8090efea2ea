import Arabize.Proofs.Json.Spellings
import Mathlib.Data.List.Infix

/-! # Objects cut short

No beginning of an object is a document but the object itself (`read_cut`).  The reader follows
the object up to where it is cut and finds nothing there, whether it looks for a mark, for a
value, or for the rest of a string.

The last of these is the one that needs an argument: what is left of an escape could be another
escape.  But a string is read up to its closing quote and no further (`readString_append`), so a
body that is cut could only be read if the whole one were closed before its end.
-/

namespace Arabize.Json

variable {c : CodePoint} {k q s t u w b before behind : Text} {start skip n m fuel : Nat}

/-- The reading meets a fault that has a place. -/
def Breaks {α : Type} (reading : Except Fault α) : Prop := ∃ flaw n, reading = .error (.at flaw n)

theorem breaks_error {α : Type} (flaw : Flaw) (n : Nat) :
    Breaks (.error (.at flaw n) : Except Fault α) := ⟨flaw, n, rfl⟩

theorem read_of_breaks (broken : Breaks (readDocument t)) :
    ∃ flaw line column offset, read t = .error (.malformed flaw line column offset) := by
  obtain ⟨flaw, n, broken⟩ := broken
  refine ⟨flaw, lineAt t n, columnAt t n, n, ?_⟩
  rw [read, broken]
  rfl

/-! ## Strings look no further than their closing quote -/

/-- A code point is put before what is read behind it. -/
theorem prepend_eq_ok {reading : Except Fault (Text × Cursor)} {cur : Cursor} :
    (match reading with
      | .error e => .error e
      | .ok (s, cur) => .ok (c :: s, cur)) = (.ok (s, cur) : Except Fault (Text × Cursor)) ↔
      ∃ more, reading = .ok (more, cur) ∧ s = c :: more := by
  rcases reading with e | ⟨more, after⟩
  · exact iff_of_false nofun (fun ⟨_, found, _⟩ => nomatch found)
  · constructor
    · rintro ⟨⟩
      exact ⟨more, rfl, rfl⟩
    · rintro ⟨_, ⟨⟩, rfl⟩
      rfl

/-- The ways in which a string goes on: it ends, or an escape or a plain code point comes first. -/
inductive Continues (start n : Nat) : Text → Text → Cursor → Prop
  | quote {t : Text} : Continues start n ('"' :: t) [] ⟨t, n + 1⟩
  | wide {x : CodePoint} {v s : Text} {width : Nat} {cur : Cursor} :
      readUnicodeEscape v (n + 2) = .ok (x, width) →
      readString start (width + 1) (n + 1) (CodePoint.ofChar 'u' :: v) = .ok (s, cur) →
      Continues start n ('\\' :: 'u' :: v) (x :: s) cur
  | short {d x : CodePoint} {v s : Text} {cur : Cursor} :
      d ≠ 'u' → unescape? d = some x →
      readString start 1 (n + 1) (d :: v) = .ok (s, cur) →
      Continues start n ('\\' :: d :: v) (x :: s) cur
  | plain {x : CodePoint} {t s : Text} {cur : Cursor} :
      x ≠ '"' → x ≠ '\\' → ¬ x.val < 0x20 →
      readString start 0 (n + 1) t = .ok (s, cur) → Continues start n (x :: t) (x :: s) cur

theorem readString_eq_ok_iff {cur : Cursor} :
    readString start 0 n t = .ok (s, cur) ↔ Continues start n t s cur := by
  have slash : CodePoint.ofChar '\\' ≠ CodePoint.ofChar '"' := by decide
  constructor
  -- Each way on has its branch in the reader; all others give an error.
  · intro read
    cases t with
    | nil => cases read
    | cons c t =>
      rw [readString.eq_def] at read
      dsimp only at read
      split at read
      next quote =>
        cases read
        exact quote ▸ .quote
      next quote =>
        split at read
        next escape =>
          subst escape
          cases t with
          | nil => cases read
          | cons d v =>
            dsimp only at read
            split at read
            next letter =>
              subst letter
              cases code : readUnicodeEscape v (n + 2) with
              | error e =>
                rw [code] at read
                cases read
              | ok pair =>
                rw [code] at read
                obtain ⟨more, behind, rfl⟩ := prepend_eq_ok.1 read
                exact .wide code behind
            next letter =>
              cases short : unescape? d with
              | none =>
                rw [short] at read
                cases read
              | some x =>
                rw [short] at read
                obtain ⟨more, behind, rfl⟩ := prepend_eq_ok.1 read
                exact .short letter short behind
        next escape =>
          split at read
          · cases read
          next visible =>
            obtain ⟨more, behind, rfl⟩ := prepend_eq_ok.1 read
            exact .plain quote escape visible behind
  · intro continues
    rw [readString.eq_def]
    cases continues with
    | quote => rfl
    | wide code behind => simp only [slash, if_false, if_true, code, behind]
    | short letter short behind => simp only [slash, if_false, if_true, letter, short, behind]
    | plain quote escape visible behind =>
      simp only [quote, escape, visible, if_false, behind]

theorem hex4?_append (long : 4 ≤ t.length) (u : Text) : hex4? (t ++ u) = hex4? t := by
  match t, long with
  | _ :: _ :: _ :: _ :: _, _ => rfl

theorem length_of_readUnicodeEscape {width : Nat} (read : readUnicodeEscape t n = .ok (c, width)) :
    4 < t.length := by
  unfold readUnicodeEscape at read
  split at read
  · cases read
  · omega

/-- An escape is there as a whole if the string that it stands in is closed. -/
theorem escape_of_append {cur : Cursor} (read : readString start 0 n t = .ok (s, cur))
    (escape : Text.startsWith (t ++ u) "\\u" = true) :
    6 < t.length ∧ Text.startsWith t "\\u" = true := by
  have mark : (Text.ofString "\\u") = [CodePoint.ofChar '\\', CodePoint.ofChar 'u'] := by decide
  rw [Text.startsWith_iff, mark] at escape
  rw [Text.startsWith_iff, mark]
  cases readString_eq_ok_iff.1 read with
  | quote => exact absurd (List.cons_prefix_cons.1 escape).1 (by decide)
  | wide code =>
    have long := length_of_readUnicodeEscape code
    exact ⟨by simp only [List.length_cons]; omega, _, rfl⟩
  | short other =>
    have second := (List.cons_prefix_cons.1 escape).2
    exact absurd (List.cons_prefix_cons.1 second).1.symm other
  | plain _ other => exact absurd (List.cons_prefix_cons.1 escape).1.symm other

theorem readString_drop {start k n : Nat} {t : Text} {result : Text × Cursor}
    (read : readString start k n t = .ok result) :
    readString start 0 (n + k) (t.drop k) = .ok result := by
  induction k generalizing n t with
  | zero => exact read
  | succ k ih =>
    cases t with
    | nil => cases read
    | cons c t =>
      rw [List.drop_succ_cons, Nat.add_comm k, ← Nat.add_assoc]
      exact ih read

theorem startsWith_append_left {head : Text} (starts : Text.startsWith t head = true) (u : Text) :
    Text.startsWith (t ++ u) head = true := by
  rw [Text.startsWith_iff] at starts ⊢
  exact starts.trans (List.prefix_append t u)

/-- An escape in a string that is closed behind it is read alike, whatever follows. -/
theorem readUnicodeEscape_append {width : Nat} {result : Text × Cursor}
    (read : readUnicodeEscape t n = .ok (c, width))
    (closed : readString start 0 m (t.drop width) = .ok result) (u : Text) :
    readUnicodeEscape (t ++ u) n = .ok (c, width) := by
  unfold readUnicodeEscape at read ⊢
  split at read
  · cases read
  next long =>
    have more : ¬ (t ++ u).length ≤ 4 := by
      rw [List.length_append]
      omega
    rw [if_neg more, hex4?_append (by omega)]
    rw [List.drop_append_of_le_length (by omega)]
    cases found : hex4? t with
    | none =>
      rw [found] at read
      cases read
    | some high =>
      rw [found] at read
      dsimp only at read ⊢
      split at read
      next pair =>
        simp only [Bool.and_eq_true, decide_eq_true_eq] at pair
        obtain ⟨⟨isHigh, wide⟩, escape⟩ := pair
        have both : ((CodePoint.ofNat high).isHighSurrogate &&
            decide (6 < (t.drop 4 ++ u).length) && Text.startsWith (t.drop 4 ++ u) "\\u") = true := by
          rw [isHigh, startsWith_append_left escape, List.length_append, decide_eq_true (by omega)]
          rfl
        rw [if_pos both, List.drop_append_of_le_length (by omega),
          hex4?_append (by rw [List.length_drop]; omega)]
        exact read
      -- What follows completes no pair, because the string is closed before it.
      next single =>
        cases read
        rw [if_neg]
        intro pair
        simp only [Bool.and_eq_true, decide_eq_true_eq] at pair
        obtain ⟨⟨isHigh, _⟩, escape⟩ := pair
        obtain ⟨wide, starts⟩ := escape_of_append closed escape
        exact single (by rw [isHigh, starts, decide_eq_true wide]; rfl)

/-- A string is read up to its closing quote and no further. -/
theorem readString_append {r : Text} (read : readString start skip n t = .ok (s, ⟨r, m⟩))
    (u : Text) : readString start skip n (t ++ u) = .ok (s, ⟨r ++ u, m⟩) := by
  induction t generalizing skip n s with
  | nil => cases skip <;> cases read
  | cons c t ih =>
    cases skip with
    | succ skip => exact ih read
    | zero =>
      rw [readString_eq_ok_iff] at read ⊢
      cases read with
      | quote => exact .quote
      | wide code behind =>
        exact .wide (readUnicodeEscape_append code (readString_drop behind) u) (ih behind)
      | short letter short behind => exact .short letter short (ih behind)
      | plain quote escape visible behind => exact .plain quote escape visible (ih behind)

/-! ## Faults with a place -/

theorem readUnicodeEscape_error {e : Fault} (failed : readUnicodeEscape t n = .error e) :
    ∃ flaw m, e = .at flaw m := by
  unfold readUnicodeEscape at failed
  dsimp only at failed
  repeat' split at failed
  all_goals cases failed
  all_goals exact ⟨_, _, rfl⟩

theorem readString_error {e : Fault} (failed : readString start skip n t = .error e) :
    ∃ flaw m, e = .at flaw m := by
  fun_induction readString start skip n t with
  | case1 | case4 | case8 | case11 =>
    cases failed
    exact ⟨_, _, rfl⟩
  | case2 _ _ _ _ ih => exact ih failed
  | case3 | case7 | case10 | case13 => cases failed
  | case5 _ _ _ code =>
    cases failed
    exact readUnicodeEscape_error code
  | case6 _ _ _ _ _ _ _ behind ih | case9 _ _ _ _ _ _ _ behind _ ih
    | case12 _ _ _ _ _ _ _ behind ih =>
    cases failed
    exact ih behind

/-! ## Parts cut short -/

/-- A beginning of two texts ends in the first one, or behind it. -/
theorem cut_append (cut : t <+: u ++ w) : t <+: u ∨ ∃ more, more <+: w ∧ t = u ++ more := by
  obtain ⟨rest, same⟩ := cut
  rcases List.append_eq_append_iff.1 same with ⟨more, rfl, _⟩ | ⟨more, rfl, cut⟩
  · exact .inl (List.prefix_append _ _)
  · exact .inr ⟨more, ⟨rest, cut.symm⟩, rfl⟩

/-- How a reading ends that is to take a part which `w` follows, where the text may be cut: it
    breaks, or takes the part and has a beginning of `w` left. -/
def Takes {α : Type} (reading : Except Fault (α × Cursor)) (x : α) (w : Text) : Prop :=
  Breaks reading ∨ ∃ more m, more <+: w ∧ reading = .ok (x, ⟨more, m⟩)

theorem readString_cut (spells : SpellsBody s b) (cut : t <+: b ++ CodePoint.ofChar '"' :: w)
    (start n : Nat) : Takes (readString start 0 n t) s w := by
  have inside : ∀ {t}, t <+: b → Breaks (readString start 0 n t) := by
    rintro t ⟨rest, rfl⟩
    cases read : readString start 0 n t with
    | error e =>
      obtain ⟨flaw, m, rfl⟩ := readString_error read
      exact breaks_error flaw m
    | ok result =>
      -- Then the whole body would be closed before its end.
      obtain ⟨x, r, m⟩ := result
      obtain ⟨k, whole⟩ := readString_of_spells spells start n []
      have early := readString_append read (rest ++ [CodePoint.ofChar '"'])
      rw [← List.append_assoc, whole] at early
      simp at early
  rcases cut_append cut with within | ⟨more, behind, rfl⟩
  · exact .inl (inside within)
  · cases more with
    | nil => exact .inl (inside (by rw [List.append_nil]))
    | cons c more =>
      obtain ⟨rfl, rest⟩ := List.cons_prefix_cons.1 behind
      obtain ⟨m, read⟩ := readString_of_spells spells start n more
      exact .inr ⟨more, m, rest, read⟩

theorem skipSpaces_cut (spaces : Spaces before)
    (visible : ∀ c, w.head? = some c → isSpace c = false) (cut : t <+: before ++ w) (n : Nat) :
    ∃ more m, more <+: w ∧ Cursor.skipSpaces ⟨t, n⟩ = ⟨more, m⟩ := by
  rcases cut_append cut with within | ⟨more, behind, rfl⟩
  · have skipped := skipSpaces_append (t := []) (fun c member => spaces c (within.subset member))
      nofun n
    rw [List.append_nil] at skipped
    exact ⟨[], _, List.nil_prefix, skipped⟩
  · refine ⟨more, _, behind, skipSpaces_append spaces (fun c front => visible c ?_) n⟩
    obtain ⟨rest, rfl⟩ := behind
    rw [List.head?_append, front]
    rfl

/-- The values that are read up to their end and no further, or not at all. -/
structure Closed (value : Json → Text → Prop) : Prop where
  opens : ∀ {j q}, value j q → Opens q
  takes : ∀ {j q t w}, value j q → t <+: q ++ w → ∀ fuel n, Takes (readValue fuel ⟨t, n⟩) j w

theorem closed_string : Closed SpellsString where
  opens := readable_string.opens
  takes := by
    rintro j q t w ⟨k, rfl, body, spells, rfl⟩ cut fuel n
    cases fuel with
    | zero => exact .inl (breaks_error _ _)
    | succ fuel =>
      cases t with
      | nil => exact .inl (breaks_error _ _)
      | cons c t =>
        simp only [List.cons_append, List.append_assoc, List.nil_append] at cut
        obtain ⟨rfl, inside⟩ := List.cons_prefix_cons.1 cut
        have unfolded : readValue (fuel + 1) ⟨CodePoint.ofChar '"' :: t, n⟩ =
            match readString n 0 (n + 1) t with
            | .error e => .error e
            | .ok (s, cur) => .ok (.str s, cur) := by
          rw [readValue]
          exact if_pos rfl
        rcases readString_cut spells inside n (n + 1) with ⟨flaw, m, broken⟩ | ⟨more, m, rest, read⟩
        · rw [unfolded, broken]
          exact .inl (breaks_error flaw m)
        · rw [unfolded, read]
          exact .inr ⟨more, m, rest, rfl⟩

variable {value : Json → Text → Prop}

/-- What the reader of fields does behind a field. -/
def afterField (fuel : Nat) (seen : Mapping Json) (cur : Cursor) : Except Fault (Json × Cursor) :=
  let cur := cur.skipSpaces
  if cur.peek? = some (CodePoint.ofChar '\x7d') then .ok (.obj seen, cur.advance 1)
  else if cur.peek? ≠ some (CodePoint.ofChar ',') then .error (.at .expectingComma cur.offset)
  else readFields fuel seen (cur.advance 1).skipSpaces

/-- A field that may be cut short. -/
theorem readFields_cut (closed : Closed value) {kv : Text × Json} (field : SpellsField value kv q)
    (cut : t <+: q ++ w) (seen : Mapping Json) (fuel n : Nat) :
    Breaks (readFields (fuel + 1) seen ⟨t, n⟩) ∨ ∃ more m, more <+: w ∧
      readFields (fuel + 1) seen ⟨t, n⟩ =
        afterField fuel (Mapping.insert kv.1 kv.2 seen) ⟨more, m⟩ := by
  obtain ⟨⟨body, key, rfl⟩, spaces, further, v⟩ := field
  simp only [List.cons_append, List.append_assoc, List.nil_append] at cut
  rw [readFields]
  cases t with
  | nil => exact .inl (breaks_error _ _)
  | cons c t =>
    obtain ⟨rfl, inside⟩ := List.cons_prefix_cons.1 cut
    simp only [Cursor.peek?, mark_eq, List.head?_cons, ne_eq, not_true_eq_false, if_false,
      List.drop_one, List.tail_cons]
    rcases readString_cut key inside n (n + 1) with ⟨flaw, m, broken⟩ | ⟨more, m, rest, read⟩
    · rw [broken]
      exact .inl (breaks_error flaw m)
    rw [read]
    dsimp only
    -- Behind the key the text ends before the colon, or goes on to the value.
    obtain ⟨colon, a, goesOn, skipped⟩ := skipSpaces_cut spaces (visible_cons (by decide) _) rest m
    rw [skipped]
    cases colon with
    | nil => exact .inl (breaks_error _ _)
    | cons c more =>
      obtain ⟨rfl, tail⟩ := List.cons_prefix_cons.1 goesOn
      obtain ⟨start, k, begins, passed⟩ :=
        skipSpaces_cut further ((closed.opens v).append w).visible tail (a + 1)
      simp only [List.head?_cons, not_true_eq_false, if_false, Cursor.advance, List.drop_one,
        List.tail_cons, passed]
      rcases closed.takes v begins fuel k with ⟨flaw, m, broken⟩ | ⟨last, m, ends, taken⟩
      · rw [broken]
        exact .inl (breaks_error flaw m)
      · rw [taken]
        refine .inr ⟨last, m, ends, ?_⟩
        simp only [afterField, Cursor.peek?, Cursor.advance, List.drop_one, ne_eq]

/-! ## Objects cut short -/

theorem breaks_afterField_nil (fuel : Nat) (seen : Mapping Json) (spaces : Spaces before)
    (cut : t <+: before) (n : Nat) : Breaks (afterField fuel seen ⟨t, n⟩) := by
  rw [← List.append_nil before] at cut
  obtain ⟨more, m, nothing, skipped⟩ := skipSpaces_cut spaces (w := []) nofun cut n
  obtain rfl := List.prefix_nil.1 nothing
  rw [afterField, skipped]
  exact breaks_error _ _

theorem afterField_comma (fuel : Nat) (seen : Mapping Json) (spaces : Spaces before)
    (further : Spaces behind) (opens : Opens u)
    (cut : t <+: before ++ CodePoint.ofChar ',' :: (behind ++ u)) (n : Nat) :
    Breaks (afterField fuel seen ⟨t, n⟩) ∨ ∃ more m, more <+: u ∧
      afterField fuel seen ⟨t, n⟩ = readFields fuel seen ⟨more, m⟩ := by
  have comma : ¬ some (CodePoint.ofChar ',') = some (CodePoint.ofChar '\x7d') := by decide
  obtain ⟨more, m, goesOn, skipped⟩ := skipSpaces_cut spaces (visible_cons (by decide) _) cut n
  rw [afterField, skipped]
  cases more with
  | nil => exact .inl (breaks_error _ _)
  | cons c more =>
    obtain ⟨rfl, tail⟩ := List.cons_prefix_cons.1 goesOn
    obtain ⟨start, k, begins, passed⟩ := skipSpaces_cut further opens.visible tail (m + 1)
    refine .inr ⟨start, k, begins, ?_⟩
    simp only [Cursor.peek?, List.head?_cons, comma, if_false, ne_eq, not_true_eq_false,
      Cursor.advance, List.drop_one, List.tail_cons, passed]

/-- Fields that no closing brace follows are not read, wherever they end. -/
theorem breaks_readFields (closed : Closed value) {fs : List (Text × Json)}
    (listed : Listed (SpellsField value) fs u) (cut : t <+: u) (seen : Mapping Json)
    (fuel n : Nat) : Breaks (readFields fuel seen ⟨t, n⟩) := by
  induction listed generalizing t seen fuel n with
  | last field spaces =>
    cases fuel with
    | zero => exact breaks_error _ _
    | succ fuel =>
      rcases readFields_cut closed field cut seen fuel n with broken | ⟨more, m, rest, read⟩
      · exact broken
      · rw [read]
        exact breaks_afterField_nil _ _ spaces rest m
  | more field spaces further others ih =>
    cases fuel with
    | zero => exact breaks_error _ _
    | succ fuel =>
      rcases readFields_cut closed field cut seen fuel n with broken | ⟨more, m, rest, read⟩
      · exact broken
      rw [read]
      rcases afterField_comma fuel _ spaces further (opens_of_listed SpellsField.opens others) rest
        m with broken | ⟨next, k, begins, same⟩
      · exact broken
      · rw [same]
        exact ih begins _ _ _

theorem breaks_readValue (closed : Closed value) {fs : List (Text × Json)}
    (object : Enclosed '\x7b' '\x7d' (SpellsField value) fs q) (cut : t <+: q) (proper : t ≠ q)
    (fuel n : Nat) : Breaks (readValue fuel ⟨t, n⟩) := by
  -- Up to the closing brace there are blanks, and perhaps fields.
  have unclosed : ∃ before w, Spaces before ∧ q = CodePoint.ofChar '\x7b' ::
        (before ++ w ++ [CodePoint.ofChar '\x7d']) ∧ (w = [] ∨ Opens w) ∧
      ∀ {s}, s <+: w → ∀ fuel n, Breaks (readFields fuel [] ⟨s, n⟩) := by
    cases object with
    | @empty before spaces =>
      refine ⟨before, [], spaces, by rw [List.append_nil], .inl rfl, ?_⟩
      rintro s nothing fuel n
      obtain rfl := List.prefix_nil.1 nothing
      cases fuel <;> exact breaks_error _ _
    | @filled before u _ spaces listed =>
      exact ⟨before, u, spaces, by rw [List.append_assoc],
        .inr (opens_of_listed SpellsField.opens listed),
        fun begins fuel n => breaks_readFields closed listed begins [] fuel n⟩
  obtain ⟨before, w, spaces, rfl, opens, breaks⟩ := unclosed
  cases fuel with
  | zero => exact breaks_error _ _
  | succ fuel =>
    cases t with
    | nil => exact breaks_error _ _
    | cons c t =>
      obtain ⟨rfl, tail⟩ := List.cons_prefix_cons.1 cut
      have inside : t <+: before ++ w :=
        (List.prefix_concat_iff.1 tail).resolve_left fun same => proper (congrArg _ same)
      have visible : ∀ c, w.head? = some c → isSpace c = false := by
        rcases opens with rfl | opens
        · exact nofun
        · exact opens.visible
      obtain ⟨more, m, begins, skipped⟩ := skipSpaces_cut spaces visible inside (n + 1)
      have goesOn : ¬ more.head? = some (CodePoint.ofChar '\x7d') := by
        intro brace
        obtain ⟨rest, rfl⟩ := begins
        rcases opens with nothing | opens
        · obtain ⟨rfl, _⟩ := List.append_eq_nil_iff.1 nothing
          cases brace
        · refine opens.head_ne (show opensValue '\x7d' = false by decide) ?_
          rw [List.head?_append, brace]
          rfl
      rw [readValue]
      dsimp only
      rw [if_neg (by decide), if_pos rfl]
      simp only [Cursor.advance, List.drop_one, List.tail_cons, skipped, Cursor.peek?, mark_eq,
        goesOn, if_false]
      exact breaks begins fuel m

/-- No beginning of an object is a document but the object itself. -/
theorem read_cut (closed : Closed value) {fs : List (Text × Json)}
    (object : Enclosed '\x7b' '\x7d' (SpellsField value) fs q) (cut : t <+: q) (proper : t ≠ q) :
    ∃ flaw line column offset, read t = .error (.malformed flaw line column offset) := by
  have front : ∀ c, t.head? = some c → c = CodePoint.ofChar '\x7b' := by
    obtain ⟨inner, rfl⟩ : ∃ inner, q = CodePoint.ofChar '\x7b' :: inner := by
      cases object <;> exact ⟨_, rfl⟩
    intro c head
    cases t with
    | nil => cases head
    | cons d t =>
      cases head
      exact (List.cons_prefix_cons.1 cut).1
  have unmarked : ¬ t.head? = some 0xFEFF := fun head => absurd (front _ head) (by decide)
  have visible : ∀ c, t.head? = some c → isSpace c = false := by
    intro c head
    rw [front c head]
    decide
  obtain ⟨flaw, n, broken⟩ := breaks_readValue closed object cut proper (2 * t.length + 2) 0
  refine read_of_breaks ⟨flaw, n, ?_⟩
  rw [readDocument, if_neg unmarked, skipSpaces_of_visible visible, broken]

end Arabize.Json
