import Arabize.Proofs.Json.Beginnings
import Arabize.Proofs.Service.Blocks
import Arabize.Proofs.Service.FencedStrings
import Arabize.Proofs.Text.Words

/-! # Objects in prose

An answer may hold its object between sentences.  Such a text is not read as it is, for a sentence
is no value; so the object is what the search for a block finds, without the fences in it.

The search counts braces in strings as well, and the fences in strings are gone by then.  So the
object comes back as it was sent exactly if no string holds a fence and no brace in a string closes
it early (`parse_prose`).
-/

namespace Arabize

open Json (SpellsField SpellsString Enclosed)

namespace Answer

/-- The code points that text around an object may not hold. -/
def marks : Text := "[]\x7b\x7d\"`"

/-- Text without brackets, braces, quotes and backticks. -/
def Prose (t : Text) : Prop := ∀ c ∈ marks, c ∉ t

instance (t : Text) : Decidable (Prose t) :=
  decidable_of_iff ((marks.all fun c => !t.contains c) = true) (by simp [Prose])

theorem Prose.of_subset {s t : Text} (prose : Prose t) (sub : s ⊆ t) : Prose s := fun c mark inside =>
  prose c mark (sub inside)

end Answer

/-! ## Prose is no value -/

namespace Json

open Answer (Prose marks)

variable {front t rest : Text} {c : CodePoint} {n : Nat}

/-- What begins a text without the code point that comes next in it ends before that. -/
theorem prefix_before {s u : Text} (begins : u <+: s ++ c :: t) (absent : c ∉ u) : u <+: s := by
  rcases cut_append begins with inside | ⟨more, behind, rfl⟩
  · exact inside
  · cases more with
    | nil => rw [List.append_nil]
    | cons d more =>
      obtain ⟨rfl, _⟩ := List.cons_prefix_cons.1 behind
      exact absurd (List.mem_append_right s List.mem_cons_self) absent

/-- A word ends before any brace. -/
theorem readWord?_prefix {j : Json} (front : Text)
    (word : readWord? (front ++ CodePoint.ofChar '\x7b' :: rest) = some (j, n)) :
    ∃ w more, front = w ++ more ∧ n = w.length := by
  have bare : ∀ w ∈ words.map Prod.fst, CodePoint.ofChar '\x7b' ∉ w := by decide
  rw [readWord?, Option.map_eq_some_iff] at word
  obtain ⟨w, found, same⟩ := word
  cases same
  have member := List.mem_of_find?_eq_some found
  have begins := List.find?_some found
  obtain ⟨more, same⟩ := prefix_before (List.isPrefixOf_iff_prefix.1 begins)
    (bare w.1 (List.mem_map_of_mem member))
  exact ⟨w.1, more, same.symm, rfl⟩

theorem wholeDigits_of_head (noDigit : ∀ c, t.head? = some c → c.isDigit = false) :
    wholeDigits t = [] := by
  cases t with
  | nil => rfl
  | cons c t =>
    have here := noDigit c rfl
    have zero : ¬ ((c :: t).head? == some (CodePoint.ofChar '0')) = true := by
      rw [List.head?_cons, beq_iff_eq]
      intro same
      rw [Option.some.inj same] at here
      cases here
    rw [wholeDigits, if_neg zero, List.takeWhile_cons_of_neg (by rw [here]; exact Bool.false_ne_true)]

theorem readNumeral?_of_no_digit (front : Text) (noDigit : ∀ c ∈ front, c.isDigit = false)
    (rest : Text) :
    readNumeral? (front ++ CodePoint.ofChar '\x7b' :: rest) = none := by
  have head : ∀ {front : Text}, (∀ c ∈ front, c.isDigit = false) →
      ∀ c, (front ++ CodePoint.ofChar '\x7b' :: rest).head? = some c → c.isDigit = false := by
    intro front noDigit c first
    cases front with
    | nil =>
      cases first
      decide
    | cons d front =>
      cases first
      exact noDigit c List.mem_cons_self
  have unsigned_eq : ∃ front' : Text, (∀ c ∈ front', c.isDigit = false) ∧
      unsigned (front ++ CodePoint.ofChar '\x7b' :: rest) = front' ++ CodePoint.ofChar '\x7b' :: rest := by
    unfold unsigned
    split
    next minus =>
      cases front with
      | nil => cases minus
      | cons d front => exact ⟨front, fun c member => noDigit c (List.mem_cons_of_mem _ member), rfl⟩
    next => exact ⟨front, noDigit, rfl⟩
  obtain ⟨front', noDigit, same⟩ := unsigned_eq
  rw [readNumeral?_eq, same, wholeDigits_of_head (head noDigit)]
  rfl

theorem skipSpaces_ne_nil (member : c ∈ t) (visible : isSpace c = false) (n : Nat) :
    (Cursor.skipSpaces ⟨t, n⟩).rest ≠ [] := by
  intro empty
  have all : t.takeWhile isSpace = t :=
    (List.takeWhile_prefix isSpace).eq_of_length_le (List.drop_eq_nil_iff.1 empty)
  rw [← all] at member
  rw [List.all_eq_true.1 List.all_takeWhile c member] at visible
  cases visible

theorem split_visible (visible : ¬ Spaces t) :
    ∃ spaces x more, t = spaces ++ x :: more ∧ Spaces spaces ∧ isSpace x = false := by
  induction t with
  | nil => exact absurd spaces_nil visible
  | cons c t ih =>
    cases space : isSpace c with
    | false => exact ⟨[], c, t, rfl, spaces_nil, space⟩
    | true =>
      obtain ⟨spaces, x, more, rfl, blank, seen⟩ := ih fun all =>
        visible (List.forall_mem_cons.2 ⟨space, all⟩)
      exact ⟨c :: spaces, x, more, rfl, List.forall_mem_cons.2 ⟨space, blank⟩, seen⟩

/-- What begins with prose and goes on with a brace is not a document. -/
theorem read_prose (prose : Prose front) (noDigit : ∀ c ∈ front, c.isDigit = false)
    (visible : ¬ Spaces front) (rest : Text) :
    ∃ flaw line column offset, read (front ++ CodePoint.ofChar '\x7b' :: rest) =
      .error (.malformed flaw line column offset) := by
  refine read_of_breaks ?_
  unfold readDocument
  split
  · exact breaks_error _ _
  obtain ⟨spaces, x, more, rfl, blank, seen⟩ := split_visible visible
  have member : x ∈ spaces ++ x :: more := List.mem_append_right _ List.mem_cons_self
  have plain : x ≠ CodePoint.ofChar '"' ∧ x ≠ CodePoint.ofChar '\x7b' ∧ x ≠ CodePoint.ofChar '[' := by
    refine ⟨?_, ?_, ?_⟩
    all_goals
      rintro rfl
      exact prose _ (by decide) member
  have unread : readNumeral? (x :: (more ++ CodePoint.ofChar '\x7b' :: rest)) = none :=
    readNumeral?_of_no_digit (x :: more)
      (fun c inside => noDigit c (List.mem_append_right _ inside)) rest
  rw [List.append_assoc, List.cons_append, skipSpaces_append blank (visible_cons seen _), readValue]
  dsimp only
  rw [if_neg plain.1, if_neg plain.2.1, if_neg plain.2.2, readScalar]
  dsimp only
  cases word : readWord? (x :: (more ++ CodePoint.ofChar '\x7b' :: rest)) with
  | none =>
    rw [unread]
    exact breaks_error _ _
  | some found =>
    obtain ⟨j, n⟩ := found
    obtain ⟨w, behind, split, rfl⟩ := readWord?_prefix (x :: more) word
    -- Behind the word there is at least the brace.
    have extra := skipSpaces_ne_nil (t := behind ++ CodePoint.ofChar '\x7b' :: rest)
      (List.mem_append_right _ List.mem_cons_self) (by decide) (0 + spaces.length + w.length)
    have left : (x :: (more ++ CodePoint.ofChar '\x7b' :: rest)).drop w.length =
        behind ++ CodePoint.ofChar '\x7b' :: rest := by
      rw [← List.cons_append, split, List.append_assoc, List.drop_left]
    dsimp only
    rw [Cursor.advance, left, if_neg extra]
    exact breaks_error _ _

end Json

namespace Answer

variable {before behind doc t raw : Text} {pairs : Lexicon} {m : Mapping Json} {c : CodePoint}

/-! ## Blanks around prose -/

theorem stripRight_cons (seen : c.isBlank = false) (t : Text) :
    ∃ t', Text.stripRight (c :: t) = c :: t' ∧ t' <+: t := by
  have begins := Text.stripRight_initial (c :: t)
  cases left : Text.stripRight (c :: t) with
  | nil =>
    have blank := List.dropWhile_eq_nil_iff.1 (List.reverse_eq_nil_iff.1 left)
    rw [blank c (List.mem_reverse.2 List.mem_cons_self)] at seen
    cases seen
  | cons d t' =>
    rw [left] at begins
    obtain ⟨rfl, inside⟩ := List.cons_prefix_cons.1 begins
    exact ⟨t', rfl, inside⟩

/-- Blanks at the ends are taken from the text around a part that ends visibly. -/
theorem strip_around (visible : Text.isBlank before = false) (seen : c.isBlank = false)
    (inner behind : Text) :
    ∃ before' behind', Text.strip (before ++ (inner ++ c :: behind)) =
        before' ++ (inner ++ c :: behind') ∧ before' <:+ before ∧ Text.isBlank before' = false ∧
          behind' <+: behind := by
  obtain ⟨behind', right, cut⟩ := stripRight_cons seen behind
  have filled : Text.stripLeft before ≠ [] := by
    intro empty
    have blank := List.all_eq_true.2 (List.dropWhile_eq_nil_iff.1 empty)
    rw [Text.isBlank, blank] at visible
    cases visible
  have left : Text.stripLeft (before ++ (inner ++ c :: behind)) =
      Text.stripLeft before ++ (inner ++ c :: behind) := by
    unfold Text.stripLeft at filled ⊢
    rw [List.dropWhile_append, if_neg (by simpa using filled)]
  refine ⟨Text.stripLeft before, behind', ?_, List.dropWhile_suffix _, ?_, cut⟩
  · rw [Text.strip, left, ← List.append_assoc, Text.stripRight_append (by rw [right]; simp), right,
      List.append_assoc]
  · rw [Bool.eq_false_iff]
    intro blank
    have all : Text.isBlank before = true := by
      rw [← List.takeWhile_append_dropWhile (p := CodePoint.isBlank) (l := before), Text.isBlank,
        List.all_append, List.all_takeWhile, Bool.true_and]
      exact blank
    rw [all] at visible
    cases visible

/-! ## Reading the block -/

theorem readIfWellFormed_of_malformed
    (broken : ∃ flaw line column offset, Json.read t = .error (.malformed flaw line column offset)) :
    readIfWellFormed t = .ok none := by
  obtain ⟨flaw, line, column, offset, broken⟩ := broken
  rw [readIfWellFormed, broken]

/-- The text of an object is an opening brace, what is inside, and a closing brace. -/
theorem braces_of_object (object : Enclosed '\x7b' '\x7d' (SpellsField SpellsString) m doc) :
    ∃ inner, doc = CodePoint.ofChar '\x7b' :: (inner ++ [CodePoint.ofChar '\x7d']) := by
  cases object with
  | empty => exact ⟨_, rfl⟩
  | filled => exact ⟨_, by rw [List.append_assoc]⟩

/-- An object in prose is read, unless it closes early. -/
theorem readBlock_prose (object : Enclosed '\x7b' '\x7d' (SpellsField SpellsString) m doc)
    (prose : Prose before) (further : Prose behind) :
    (¬ ClosesEarly '\x7b' '\x7d' doc →
        readBlock (before ++ (doc ++ behind)) = .ok (some (.obj (Mapping.ofPairs m)))) ∧
      (ClosesEarly '\x7b' '\x7d' doc → readBlock (before ++ (doc ++ behind)) = .ok none) := by
  obtain ⟨inner, rfl⟩ := braces_of_object object
  have plain : ∀ x ∈ before, isOpening x = false := by
    intro x member
    simp only [isOpening, Bool.or_eq_false_iff, decide_eq_false_iff_not]
    constructor
    all_goals
      rintro rfl
      exact prose _ (by decide) member
  have start := block?_append plain (o := '\x7b') (by decide)
    (inner ++ [CodePoint.ofChar '\x7d'] ++ behind)
  have partner : closingOf '\x7b' = CodePoint.ofChar '\x7d' := by decide
  have found := blockAt_append (o := '\x7b') (by decide) (further '\x7b' (by decide))
    (by rw [partner]; exact further '\x7d' (by decide)) inner
  rw [partner] at found
  unfold readBlock
  rw [List.cons_append, start]
  rcases found with ⟨whole, block⟩ | ⟨early, front, cut, proper, block⟩ <;>
    rw [List.cons_append] at block <;> rw [block]
  · refine ⟨fun _ => readIfWellFormed_of_read (Json.read_of_spells
      (Json.readable_object Json.readable_string) ⟨[], _, [], Json.spaces_nil, Json.spaces_nil,
        ⟨_, rfl, object⟩, (List.append_nil _).symm⟩), fun early => absurd early whole⟩
  · -- The block is a proper beginning of the object then, and no document.
    exact ⟨fun whole => absurd early whole, fun _ => readIfWellFormed_of_malformed
      (Json.read_cut Json.closed_string object cut proper)⟩

/-- An answer that is read neither as it is nor without its fences is what its block gives. -/
theorem parse_of_block {r : Option Json}
    (direct : ∃ flaw line column offset,
      Json.read raw = .error (.malformed flaw line column offset))
    (second : ∃ flaw line column offset,
      Json.read (withoutFences raw) = .error (.malformed flaw line column offset))
    (block : readBlock (withoutFences raw) = .ok r) :
    parse raw = match r with
      | some j => if isAnswer j then .ok (kept (flatten j)) else .error (.unusable raw)
      | none => .error (.unusable raw) := by
  have value : value? raw = .ok r := by
    rw [value?, readIfWellFormed_of_malformed direct]
    change readUnfenced raw = _
    rw [readUnfenced, readIfWellFormed_of_malformed second]
    exact block
  rw [parse, value]
  cases r <;> rfl

/-- What is recovered of an object in prose, which has lost its fences. -/
theorem parse_of_unfence {doc' : Text}
    (object : Enclosed '\x7b' '\x7d' (SpellsField SpellsString) m doc')
    (direct : ∃ flaw line column offset,
      Json.read raw = .error (.malformed flaw line column offset))
    (left : unfence raw = before ++ (doc' ++ behind)) (prose : Prose before)
    (visible : Text.isBlank before = false) (noDigit : ∀ c ∈ before, c.isDigit = false)
    (further : Prose behind) :
    (¬ ClosesEarly '\x7b' '\x7d' doc' → parse raw = .ok (kept (Mapping.ofPairs m))) ∧
      (ClosesEarly '\x7b' '\x7d' doc' → parse raw = .error (.unusable raw)) := by
  obtain ⟨inner, rfl⟩ := braces_of_object object
  obtain ⟨before', behind', stripped, suffix, seen, cut⟩ := strip_around (c := '\x7d') visible
    (by decide) (CodePoint.ofChar '\x7b' :: inner) behind
  have text : withoutFences raw =
      before' ++ (CodePoint.ofChar '\x7b' :: (inner ++ [CodePoint.ofChar '\x7d']) ++ behind') := by
    rw [withoutFences_eq_strip, left]
    simpa using stripped
  have prose' := prose.of_subset suffix.subset
  have second := Json.read_prose prose' (fun c member => noDigit c (suffix.subset member))
    (fun spaces => by
      rw [isBlank_of_spaces spaces] at seen
      cases seen) (inner ++ [CodePoint.ofChar '\x7d'] ++ behind')
  have block := readBlock_prose object prose' (further.of_subset cut.subset)
  rw [← text] at block
  rw [← List.cons_append, ← text] at second
  exact ⟨fun whole => parse_of_block direct second (block.1 whole),
    fun early => parse_of_block direct second (block.2 early)⟩

theorem not_mem_of_prose (prose : Prose t) : CodePoint.ofChar '`' ∉ t := prose _ (by decide)

/-- Prose with an object in it is no document. -/
theorem read_object_prose {doc : Text}
    (object : Enclosed '\x7b' '\x7d' (SpellsField SpellsString) m doc) (prose : Prose before)
    (visible : Text.isBlank before = false) (noDigit : ∀ c ∈ before, c.isDigit = false)
    (behind : Text) : ∃ flaw line column offset, Json.read (before ++ (doc ++ behind)) =
      .error (.malformed flaw line column offset) := by
  obtain ⟨inner, rfl⟩ := braces_of_object object
  refine Json.read_prose prose noDigit (fun spaces => ?_) _
  rw [isBlank_of_spaces spaces] at visible
  cases visible

/-- Without fences, pairs in prose are recovered unless their object closes early. -/
theorem parse_unfenced_prose (nodup : (Mapping.keys pairs).Nodup)
    (filled : ∀ kv ∈ pairs, Text.isBlank kv.2 = false) (spells : SpellsFields pairs doc)
    (prose : Prose before) (visible : Text.isBlank before = false)
    (noDigit : ∀ c ∈ before, c.isDigit = false) (further : Prose behind)
    (unfenced : Unfenced doc) :
    (¬ ClosesEarly '\x7b' '\x7d' doc → parse (before ++ (doc ++ behind)) = .ok pairs) ∧
      (ClosesEarly '\x7b' '\x7d' doc →
        parse (before ++ (doc ++ behind)) = .error (.unusable (before ++ (doc ++ behind)))) := by
  have whole : Unfenced (doc ++ behind) :=
    unfenced_append unfenced (unfenced_of_not_mem (not_mem_of_prose further)) (.inr fun head =>
      not_mem_of_prose further (List.mem_of_mem_head? head))
  have left : unfence (before ++ (doc ++ behind)) = before ++ (doc ++ behind) := by
    rw [unfence_append (not_mem_of_prose prose), unfence_unfenced whole]
  have parsed := parse_of_unfence spells (read_object_prose spells prose visible noDigit behind)
    left prose visible noDigit further
  rwa [Mapping.ofPairs_of_nodup (by rwa [Json.keys_textValues]), kept_textValues filled] at parsed

/-- Pairs in prose are recovered exactly if no string of their object holds a fence and no brace
    in a string closes the object early. -/
theorem parse_prose (nodup : (Mapping.keys pairs).Nodup)
    (filled : ∀ kv ∈ pairs, Text.isBlank kv.2 = false) (spells : SpellsFields pairs doc)
    (prose : Prose before) (visible : Text.isBlank before = false)
    (noDigit : ∀ c ∈ before, c.isDigit = false) (further : Prose behind) :
    (parse (before ++ (doc ++ behind)) = .ok pairs ↔
        Unfenced doc ∧ ¬ ClosesEarly '\x7b' '\x7d' doc) ∧
      (Unfenced doc → ClosesEarly '\x7b' '\x7d' doc →
        parse (before ++ (doc ++ behind)) = .error (.unusable (before ++ (doc ++ behind)))) := by
  by_cases unfenced : Unfenced doc
  · obtain ⟨recovered, cut⟩ :=
      parse_unfenced_prose nodup filled spells prose visible noDigit further unfenced
    refine ⟨⟨fun parsed => ⟨unfenced, fun early => ?_⟩, fun both => recovered both.2⟩,
      fun _ => cut⟩
    rw [cut early] at parsed
    cases parsed
  · refine ⟨iff_of_false (fun parsed => ?_) (fun both => unfenced both.1),
      fun free => (unfenced free).elim⟩
    obtain ⟨m', doc', object, dropped, less⟩ :=
      unfence_object spells unfenced (not_mem_of_prose further)
    have left : unfence (before ++ (doc ++ behind)) = before ++ (doc' ++ behind) := by
      rw [unfence_append (not_mem_of_prose prose), dropped]
    obtain ⟨recovered, cut⟩ := parse_of_unfence object
      (read_object_prose spells prose visible noDigit behind) left prose visible noDigit further
    by_cases early : ClosesEarly '\x7b' '\x7d' doc'
    · rw [cut early] at parsed
      cases parsed
    · -- What is recovered holds less text than the pairs.
      rw [recovered early] at parsed
      have bound := (fieldsSize_kept_le (Mapping.ofPairs m')).trans (fieldsSize_ofPairs_le m')
      rw [Except.ok.inj parsed] at bound
      exact absurd less (Nat.not_lt.2 bound)

/-- A closing brace as a translation is enough. -/
theorem parse_prose_brace :
    let pairs : Lexicon := [("a", "\x7d")]
    let before : Text := "Here you go: "
    let doc : Text := "\x7b\"a\": \"\x7d\"\x7d"
    let raw : Text := before ++ (doc ++ "!")
    (Mapping.keys pairs).Nodup ∧ (∀ kv ∈ pairs, Text.isBlank kv.2 = false) ∧
      SpellsFields pairs doc ∧ Prose before ∧ Text.isBlank before = false ∧
      (∀ c ∈ before, c.isDigit = false) ∧ Prose "!" ∧ parse raw = .error (.unusable raw) := by
  intro pairs before doc raw
  have nodup : (Mapping.keys pairs).Nodup := by decide
  have filled : ∀ kv ∈ pairs, Text.isBlank kv.2 = false := List.forall_mem_singleton.2 (by decide)
  have blank : Json.Spaces [0x20] := List.forall_mem_singleton.2 rfl
  have object : SpellsFields pairs _ := .filled Json.spaces_nil
    (.last (.field (Json.spellsText_plain (by decide)) Json.spaces_nil blank
      ⟨_, rfl, Json.spellsText_plain (by decide)⟩) Json.spaces_nil)
  have spells : SpellsFields pairs doc := by
    refine Eq.mp (congrArg (SpellsFields pairs) ?_) object
    decide
  have prose : Prose before := by decide
  have further : Prose "!" := by decide
  have visible : Text.isBlank before = false := by decide
  have letters : (before.all fun c => !c.isDigit) = true := by decide
  have noDigit : ∀ c ∈ before, c.isDigit = false := fun c member => by
    simpa using List.all_eq_true.1 letters c member
  have unfenced : Unfenced doc := unfenced_of_not_mem (by decide)
  have early : ClosesEarly '\x7b' '\x7d' doc :=
    ⟨"\x7b\"a\": \"\x7d", ⟨"\"\x7d", by decide⟩, by decide, by decide, by decide⟩
  exact ⟨nodup, filled, spells, prose, visible, noDigit, further,
    (parse_prose nodup filled spells prose visible noDigit further).2 unfenced early⟩

end Answer

end Arabize
