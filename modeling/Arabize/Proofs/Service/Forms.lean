import Arabize.Proofs.Json.Spellings
import Arabize.Proofs.Lexicon.Stored
import Arabize.Proofs.Service.Fences

/-! # The forms of an answer

Pairs may come as an object or as an array, whose items name the word and its translation or map
the one to the other, and all of it may stand in a block of code.  An answer of any form is read
as its pairs (`parse_of_form`).

In a block of code the text starts with a fence, which no value does; so the text is read a second
time without its fences.  That takes nothing from the strings as long as none of them holds a
fence, since a backtick stands nowhere else in a value (`sealed_of_pairs`).
-/

namespace Arabize.Answer

open Json (SpellsBody SpellsText SpellsField SpellsString SpellsObject SpellsArray SpellsDocument
  Enclosed Listed Spaces Readable WideEscape textValues)

/-! ## Forms -/

/-- The fields of an item that holds a pair. -/
inductive HoldsPair : Text × Text → Lexicon → Prop
  | named {k t : Text} : HoldsPair (k, t) [("word", k), ("translated", t)]
  | single {k t : Text} : k ≠ Text.ofString "word" → k ≠ Text.ofString "translated" →
      HoldsPair (k, t) [(k, t)]

/-- The texts of an object that has strings for values. -/
def SpellsFields (fields : Lexicon) (t : Text) : Prop :=
  Enclosed '\x7b' '\x7d' (SpellsField SpellsString) (textValues fields) t

def SpellsItem (kv : Text × Text) (t : Text) : Prop :=
  ∃ fields, HoldsPair kv fields ∧ SpellsFields fields t

/-- The texts of pairs: an object of them, or an array with an item for each of them. -/
inductive SpellsPairs : Lexicon → Text → Prop
  | object {pairs : Lexicon} {t : Text} : SpellsFields pairs t → SpellsPairs pairs t
  | array {pairs : Lexicon} {t : Text} : Enclosed '[' ']' SpellsItem pairs t → SpellsPairs pairs t

/-- No string in an answer of the pairs holds a fence. -/
def Unmarked (pairs : Lexicon) : Prop := ∀ kv ∈ pairs, Unfenced kv.1 ∧ Unfenced kv.2

/-- The answers that hold pairs. -/
inductive Form (pairs : Lexicon) : Text → Prop
  | bare {doc : Text} : SpellsDocument SpellsPairs pairs doc → Form pairs doc
  /-- Behind the first fence there may be the name of the format, and then a line break. -/
  | fenced {name opened doc closed : Text} : Unmarked pairs →
      name = [] ∨ name.map CodePoint.lower = "json" → Text.isBlank opened = true →
      Text.isBlank closed = true → SpellsDocument SpellsPairs pairs doc →
      Form pairs (fence ++ (name ++ (opened ++ (doc ++ (closed ++ fence)))))

variable {pairs fields : Lexicon} {s t u q body : Text} {c : CodePoint}

/-! ## Values that hold pairs -/

theorem itemPairs_of_holdsPair {kv : Text × Text} (holds : HoldsPair kv fields) :
    itemPairs (Mapping.ofPairs (textValues fields)) = [(kv.1, .str kv.2)] := by
  have differ : Text.ofString "word" ≠ Text.ofString "translated" := by decide
  cases holds with
  | named =>
    rw [Mapping.ofPairs_of_nodup (by simp [Mapping.keys, textValues, differ])]
    simp [itemPairs, textValues, Mapping.find?, differ]
  | single noWord noTranslated =>
    rw [Mapping.ofPairs_of_nodup (by simp [Mapping.keys, textValues])]
    simp [itemPairs, textValues, Mapping.find?, noWord, noTranslated]

/-- An item as it is read. -/
def ItemOf (kv : Text × Text) (item : Json) : Prop :=
  ∃ fields, HoldsPair kv fields ∧ item = .obj (Mapping.ofPairs (textValues fields))

theorem exists_item (kv : Text × Text) (t : Text) (spelled : SpellsItem kv t) :
    ∃ item, ItemOf kv item ∧ SpellsObject SpellsString item t := by
  obtain ⟨fields, holds, object⟩ := spelled
  exact ⟨_, ⟨fields, holds, rfl⟩, _, rfl, object⟩

theorem flatten_items {items : List Json} (holds : List.Forall₂ ItemOf pairs items)
    (m : Mapping Json) :
    items.foldl (fun m item => Mapping.update m ((item.fields?.map itemPairs).getD [])) m =
      Mapping.update m (textValues pairs) := by
  induction holds generalizing m with
  | nil => rfl
  | cons here _ ih =>
    obtain ⟨fields, pair, rfl⟩ := here
    rw [List.foldl_cons, ih]
    simp only [Json.fields?, Option.map_some, Option.getD_some, itemPairs_of_holdsPair pair]
    rfl

/-- What is read of a text of pairs is an answer that holds them. -/
theorem read_of_pairs (nodup : (Mapping.keys pairs).Nodup)
    (spells : SpellsDocument SpellsPairs pairs t) :
    ∃ j, Json.read t = .ok j ∧ isAnswer j = true ∧ flatten j = textValues pairs := by
  obtain ⟨before, core, behind, spaces, further, spelled, rfl⟩ := spells
  have unique : Mapping.ofPairs (textValues pairs) = textValues pairs :=
    Mapping.ofPairs_of_nodup (by rwa [Json.keys_textValues])
  cases spelled with
  | object fields =>
    refine ⟨_, Json.read_of_spells (Json.readable_object Json.readable_string)
      ⟨before, core, behind, spaces, further, ⟨_, rfl, fields⟩, rfl⟩, rfl, unique⟩
  | array items =>
    obtain ⟨values, holds, enclosed⟩ := Json.enclosed_values exists_item items
    refine ⟨_, Json.read_of_spells
      (Json.readable_array (Json.readable_object Json.readable_string))
      ⟨before, core, behind, spaces, further, ⟨_, rfl, enclosed⟩, rfl⟩, rfl, ?_⟩
    exact (flatten_items holds []).trans unique

theorem kept_textValues (filled : ∀ kv ∈ pairs, Text.isBlank kv.2 = false) :
    kept (textValues pairs) = pairs := by
  rw [kept, Json.textFields_textValues, List.filter_eq_self]
  intro kv member
  rw [filled kv member]
  rfl

/-! ## Backticks stand in strings only -/

theorem not_mem_spaces (spaces : Spaces t) : CodePoint.ofChar '`' ∉ t := fun member =>
  absurd (spaces _ member) (by decide)

theorem sealed_spaces (spaces : Spaces t) : Sealed t :=
  ⟨unfenced_of_not_mem (not_mem_spaces spaces), fun front =>
    not_mem_spaces spaces (List.mem_of_mem_head? front)⟩

theorem not_mem_short {e : CodePoint} (listed : (e, c) ∈ Json.shortEscapes) :
    CodePoint.ofChar '`' ∉ [CodePoint.ofChar '\\', e] := by
  have all : (Json.shortEscapes.all fun row =>
      decide (CodePoint.ofChar '`' ∉ [CodePoint.ofChar '\\', row.1])) = true := by decide
  exact of_decide_eq_true (List.all_eq_true.1 all _ listed)

theorem not_mem_wideEscape (escape : WideEscape c t) : CodePoint.ofChar '`' ∉ t := by
  obtain ⟨digits, rfl, ⟨_, all, _⟩, _⟩ := escape
  intro member
  simp only [List.mem_cons] at member
  rcases member with same | same | member
  · exact absurd same (by decide)
  · exact absurd same (by decide)
  · exact absurd (List.all_eq_true.1 all _ member) (by decide)

theorem wideEscape_ne_nil (escape : WideEscape c t) : t ≠ [] := by
  obtain ⟨digits, rfl, _⟩ := escape
  exact List.cons_ne_nil _ _

/-- A row of backticks ends where a piece without them stands. -/
theorem unfenced_row {m : Nat} (row : Unfenced (List.replicate m (CodePoint.ofChar '`') ++ u))
    (absent : CodePoint.ofChar '`' ∉ s) (filled : s ≠ []) (behind : Unfenced t) :
    Unfenced (List.replicate m (CodePoint.ofChar '`') ++ (s ++ t)) := by
  have back := sealed_append absent filled behind
  exact unfenced_append (row.of_infix (List.prefix_append _ _).isInfix) back.1 (.inr back.2)

/-- Backticks in a row are spelled in a row, and all else ends such a row. -/
theorem unfenced_body (spells : SpellsBody s body) (m : Nat)
    (unfenced : Unfenced (List.replicate m (CodePoint.ofChar '`') ++ s)) :
    Unfenced (List.replicate m (CodePoint.ofChar '`') ++ body) := by
  have rest : ∀ {m : Nat} {c : CodePoint} {s : Text},
      Unfenced (List.replicate m (CodePoint.ofChar '`') ++ c :: s) →
      Unfenced (List.replicate 0 (CodePoint.ofChar '`') ++ s) := fun row =>
    row.of_infix ((List.suffix_cons _ _).trans (List.suffix_append _ _)).isInfix
  induction spells generalizing m with
  | nil => exact unfenced
  | @plain c s body _ _ _ _ ih =>
    by_cases tick : c = CodePoint.ofChar '`'
    · subst tick
      rw [List.append_cons, ← List.replicate_succ'] at unfenced ⊢
      exact ih (m + 1) unfenced
    · exact unfenced_row (s := [c]) unfenced (fun member => tick (List.mem_singleton.1 member).symm)
        (List.cons_ne_nil _ _) (ih 0 (rest unfenced))
  | @short e c s body listed _ ih =>
    exact unfenced_row unfenced (not_mem_short listed) (List.cons_ne_nil _ _)
      (ih 0 (rest unfenced))
  | wide escape _ _ ih =>
    exact unfenced_row unfenced (not_mem_wideEscape escape) (wideEscape_ne_nil escape)
      (ih 0 (rest unfenced))
  | @pair c t u s body _ high low _ ih =>
    have second := unfenced_row (m := 0) (rest unfenced) (not_mem_wideEscape low)
      (wideEscape_ne_nil low) (ih 0 (rest unfenced))
    exact unfenced_row unfenced (not_mem_wideEscape high) (wideEscape_ne_nil high) second

theorem sealed_text {k : Text} (spells : SpellsText k q) (unfenced : Unfenced k) : Sealed q := by
  obtain ⟨body, spelled, rfl⟩ := spells
  have inner : Unfenced (body ++ [CodePoint.ofChar '"']) :=
    unfenced_append (unfenced_body spelled 0 unfenced) (unfenced_of_not_mem (by decide))
      (.inr (by decide))
  exact sealed_append (s := [CodePoint.ofChar '"']) (by decide) (List.cons_ne_nil _ _) inner

theorem sealed_listed {α : Type} {part : α → Text → Prop} {xs : List α}
    (parts : ∀ x ∈ xs, ∀ t, part x t → Sealed t) (listed : Listed part xs t) : Sealed t := by
  induction listed with
  | last here spaces =>
    exact (parts _ List.mem_cons_self _ here).append (sealed_spaces spaces)
  | @more x xs t u before behind here spaces further _ ih =>
    have others := ih fun x member => parts x (List.mem_cons_of_mem _ member)
    have comma := sealed_append (s := [CodePoint.ofChar ',']) (by decide) (List.cons_ne_nil _ _)
      ((sealed_spaces further).append others).1
    exact (parts _ List.mem_cons_self _ here).append ((sealed_spaces spaces).append comma)

theorem sealed_enclosed {α : Type} {part : α → Text → Prop} {xs : List α} {o e : CodePoint}
    (opening : o ≠ CodePoint.ofChar '`') (closing : e ≠ CodePoint.ofChar '`')
    (parts : ∀ x ∈ xs, ∀ t, part x t → Sealed t) (enclosed : Enclosed o e part xs t) :
    Sealed t := by
  have single : ∀ {c : CodePoint}, c ≠ CodePoint.ofChar '`' → CodePoint.ofChar '`' ∉ [c] :=
    fun other member => other (List.mem_singleton.1 member).symm
  have last : Sealed [e] := by
    have back := sealed_append (t := []) (single closing) (List.cons_ne_nil _ _)
      (unfenced_of_not_mem List.not_mem_nil)
    rwa [List.append_nil] at back
  cases enclosed with
  | empty spaces =>
    exact sealed_append (s := [o]) (single opening) (List.cons_ne_nil _ _)
      ((sealed_spaces spaces).append last).1
  | filled spaces listed =>
    exact sealed_append (s := [o]) (single opening) (List.cons_ne_nil _ _)
      ((sealed_spaces spaces).append ((sealed_listed parts listed).append last)).1

theorem sealed_fields (unmarked : Unmarked fields) (spells : SpellsFields fields t) : Sealed t := by
  refine sealed_enclosed (by decide) (by decide) (fun kv member t field => ?_) spells
  obtain ⟨⟨k, v⟩, pair, rfl⟩ := List.mem_map.1 member
  obtain ⟨key, spaces, further, _, same, value⟩ := field
  cases same
  have colon := sealed_append (s := [CodePoint.ofChar ':']) (by decide) (List.cons_ne_nil _ _)
    (sealed_spaces further).1
  exact ((sealed_text key (unmarked _ pair).1).append ((sealed_spaces spaces).append colon)).append
    (sealed_text value (unmarked _ pair).2)

theorem unmarked_of_holdsPair {kv : Text × Text} (unfenced : Unfenced kv.1 ∧ Unfenced kv.2)
    (holds : HoldsPair kv fields) : Unmarked fields := by
  have word : Unfenced "word" := unfenced_of_not_mem (by decide)
  have translated : Unfenced "translated" := unfenced_of_not_mem (by decide)
  cases holds with
  | named =>
    exact List.forall_mem_cons.2 ⟨⟨word, unfenced.1⟩,
      List.forall_mem_singleton.2 ⟨translated, unfenced.2⟩⟩
  | single => exact List.forall_mem_singleton.2 unfenced

theorem sealed_of_pairs (unmarked : Unmarked pairs) (spells : SpellsPairs pairs t) : Sealed t := by
  cases spells with
  | object fields => exact sealed_fields unmarked fields
  | array items =>
    refine sealed_enclosed (by decide) (by decide) (fun kv member t item => ?_) items
    obtain ⟨fields, holds, object⟩ := item
    exact sealed_fields (unmarked_of_holdsPair (unmarked kv member) holds) object

/-! ## Dropping the fences -/

theorem isBlank_of_spaces (spaces : Spaces t) : Text.isBlank t = true := by
  refine List.all_eq_true.2 fun c member => ?_
  have space := spaces c member
  simp only [Json.isSpace, Bool.or_eq_true, beq_iff_eq] at space
  rcases space with ((same | same) | same) | same <;> simp [CodePoint.isBlank, same]

/-- A text of pairs begins and ends with a bracket. -/
theorem brackets_of_pairs (spells : SpellsPairs pairs t) :
    ∃ o inner e, t = o :: (inner ++ [e]) ∧
      (o = CodePoint.ofChar '[' ∨ o = CodePoint.ofChar '\x7b') ∧
      (e = CodePoint.ofChar ']' ∨ e = CodePoint.ofChar '\x7d') := by
  have ends : ∀ {α : Type} {part : α → Text → Prop} {xs : List α} {o e : CodePoint},
      Enclosed o e part xs t → ∃ inner, t = o :: (inner ++ [e]) := by
    rintro α part xs o e (spaces | ⟨spaces, listed⟩)
    · exact ⟨_, rfl⟩
    · exact ⟨_, by rw [List.append_assoc]⟩
  cases spells with
  | object fields =>
    obtain ⟨inner, rfl⟩ := ends fields
    exact ⟨_, inner, _, rfl, .inr rfl, .inr rfl⟩
  | array items =>
    obtain ⟨inner, rfl⟩ := ends items
    exact ⟨_, inner, _, rfl, .inl rfl, .inl rfl⟩

theorem stops_bracket {o : CodePoint}
    (bracket : o = CodePoint.ofChar '[' ∨ o = CodePoint.ofChar '\x7b' ∨
      o = CodePoint.ofChar ']' ∨ o = CodePoint.ofChar '\x7d') (t : Text) :
    Markup.Stops CodePoint.isBlank (o :: t) := by
  rintro c ⟨⟩
  rcases bracket with rfl | rfl | rfl | rfl <;> decide

theorem isNameChar_of_isBlank (blank : c.isBlank = true) : c.isNameChar = false := by
  rw [Bool.eq_false_iff]
  intro named
  simp only [CodePoint.isBlank, CodePoint.isNameChar, CodePoint.isLowerLetter,
    CodePoint.isUpperLetter, CodePoint.isDigit, Bool.or_eq_true, Bool.and_eq_true,
    decide_eq_true_eq, beq_iff_eq] at blank named
  omega

/-- What is no letter does not start the name of the format. -/
theorem afterAnyCase?_of_not_name (other : c.isNameChar = false) (t : Text) :
    Text.afterAnyCase? (c :: t) "json" = none := by
  have differs : CodePoint.sameLetter 'j' c = false := by
    rw [Bool.eq_false_iff]
    intro same
    have low := CodePoint.lower_of_sameLetter (d := 'j') (by decide) same
    have spelled := (CodePoint.lower_eq_iff_spells (by decide)).1 low
    rw [CodePoint.isNameChar_of_spells (by decide) spelled] at other
    cases other
  change (if CodePoint.sameLetter 'j' c = true then _ else none) = none
  rw [differs]
  rfl

/-- What follows a fence is passed over up to the first bracket. -/
theorem afterFence_eq {name opened : Text} {o : CodePoint}
    (named : name = [] ∨ name.map CodePoint.lower = Text.ofString "json")
    (blank : Text.isBlank opened = true)
    (bracket : o = CodePoint.ofChar '[' ∨ o = CodePoint.ofChar '\x7b') (t : Text) :
    afterFence (name ++ (opened ++ o :: t)) = o :: t := by
  have stripped : Text.stripLeft (opened ++ o :: t) = o :: t :=
    Markup.stripLeft_append blank (stops_bracket (bracket.imp id .inl) t)
  rcases named with rfl | spelled
  · have noName : Text.afterAnyCase? (opened ++ o :: t) "json" = none := by
      cases opened with
      | nil => exact afterAnyCase?_of_not_name (by rcases bracket with rfl | rfl <;> decide) t
      | cons c opened =>
        exact afterAnyCase?_of_not_name
          (isNameChar_of_isBlank (List.all_eq_true.1 blank c List.mem_cons_self)) _
    rw [List.nil_append, afterFence, noName, Option.getD_none, stripped]
  · have plain : (("json" : Text).all fun d => decide d.Plain) = true := by decide
    rw [afterFence, Text.afterAnyCase?_of_lower
      (fun d member => of_decide_eq_true (List.all_eq_true.1 plain d member)) spelled,
      Option.getD_some, stripped]

theorem strip_brackets {o e : CodePoint} {inner blanks : Text}
    (opening : o = CodePoint.ofChar '[' ∨ o = CodePoint.ofChar '\x7b')
    (closing : e = CodePoint.ofChar ']' ∨ e = CodePoint.ofChar '\x7d')
    (blank : Text.isBlank blanks = true) :
    Text.strip (o :: (inner ++ [e]) ++ blanks) = o :: (inner ++ [e]) := by
  have front : Text.stripLeft (o :: (inner ++ [e]) ++ blanks) = o :: (inner ++ [e]) ++ blanks :=
    Markup.stripLeft_append (u := []) rfl (stops_bracket (opening.imp id .inl) _)
  have back : Text.stripLeft (blanks.reverse ++ e :: (o :: inner).reverse) =
      e :: (o :: inner).reverse :=
    Markup.stripLeft_append (by rw [Text.isBlank, List.all_reverse]; exact blank)
      (stops_bracket (.inr (.inr closing)) _)
  have mirrored : (o :: (inner ++ [e]) ++ blanks).reverse =
      blanks.reverse ++ e :: (o :: inner).reverse := by simp
  rw [Text.strip, front, Text.stripRight, mirrored, back]
  simp

/-- Without its fences, a block of code is the text of the pairs in it. -/
theorem withoutFences_eq {name opened core closed before behind : Text}
    (named : name = [] ∨ name.map CodePoint.lower = Text.ofString "json")
    (blank : Text.isBlank opened = true) (blankEnd : Text.isBlank closed = true)
    (spaces : Spaces before) (further : Spaces behind) (unmarked : Unmarked pairs)
    (spells : SpellsPairs pairs core) :
    withoutFences (fence ++
      (name ++ (opened ++ (before ++ (core ++ behind) ++ (closed ++ fence))))) = core := by
  have safe := sealed_of_pairs unmarked spells
  obtain ⟨o, inner, e, rfl, opening, closing⟩ := brackets_of_pairs spells
  have gap : Text.isBlank (opened ++ before) = true := by
    rw [Text.isBlank, List.all_append, ← Text.isBlank, blank, ← Text.isBlank,
      isBlank_of_spaces spaces]
    rfl
  have blanks : Text.isBlank (behind ++ closed) = true := by
    rw [Text.isBlank, List.all_append, ← Text.isBlank, isBlank_of_spaces further, ← Text.isBlank,
      blankEnd]
    rfl
  have noTick : CodePoint.ofChar '`' ∉ e :: (behind ++ closed) := by
    intro member
    rcases List.mem_cons.1 member with rfl | member
    · rcases closing with same | same <;> exact absurd same (by decide)
    · exact absurd (List.all_eq_true.1 blanks _ member) (by decide)
  -- Between the two fences there is none, and none comes about where the pairs end.
  have clear : Unfenced (o :: (inner ++ [e]) ++ (behind ++ closed)) :=
    unfenced_append safe.1 (unfenced_of_not_mem fun member =>
      noTick (List.mem_cons_of_mem _ member)) (.inr fun front =>
        noTick (List.mem_cons_of_mem _ (List.mem_of_mem_head? front)))
  have last : (o :: (inner ++ [e]) ++ (behind ++ closed)).getLast? ≠
      some (CodePoint.ofChar '`') := by
    have parts : o :: (inner ++ [e]) ++ (behind ++ closed) =
        (o :: inner) ++ e :: (behind ++ closed) := by simp
    rw [parts, List.getLast?_append_of_ne_nil _ (List.cons_ne_nil _ _)]
    exact fun tick => noTick (List.mem_of_getLast? tick)
  have text : name ++ (opened ++ (before ++ (o :: (inner ++ [e]) ++ behind) ++ (closed ++ fence))) =
      (name ++ (opened ++ before)) ++
        (o :: (inner ++ [e]) ++ (behind ++ closed) ++ fence) := by simp
  have dropped : dropFencesFrom 0 (fence ++ (name ++ (opened ++
      (before ++ (o :: (inner ++ [e]) ++ behind) ++ (closed ++ fence))))) =
      o :: (inner ++ [e]) ++ (behind ++ closed) := by
    rw [text, dropFencesFrom_first _ _ (by
      rw [List.append_assoc]
      exact afterFence_eq named gap opening _)]
    exact dropFencesFrom_last (unfenced_append clear (by unfold Unfenced; decide) (.inl last))
  rw [withoutFences, dropped, replaceAll_unfenced clear]
  exact strip_brackets opening closing blanks

/-! ## Reading an answer -/

/-- No value begins with a backtick. -/
theorem read_fence (t : Text) :
    Json.read (fence ++ t) = .error (.malformed .expectingValue 1 1 0) := by
  have visible : ∀ c, (fence ++ t).head? = some c → Json.isSpace c = false := by
    rintro c ⟨⟩
    decide
  have word : Json.readWord? (fence ++ t) = none := rfl
  have numeral : Json.readNumeral? (fence ++ t) = none := rfl
  have value : ∀ fuel, Json.readValue (fuel + 1) ⟨fence ++ t, 0⟩ =
      .error (.at .expectingValue 0) := by
    intro fuel
    have scalar : Json.readScalar ⟨fence ++ t, 0⟩ = .error (.at .expectingValue 0) := by
      simp only [Json.readScalar, word, numeral]
    rw [← scalar, fence_eq, List.cons_append, Json.readValue]
    dsimp only
    rw [if_neg (by decide), if_neg (by decide), if_neg (by decide)]
  have unmarked : ¬ (fence ++ t).head? = some 0xFEFF := by
    change ¬ some (CodePoint.ofChar '`') = some 0xFEFF
    decide
  rw [Json.read, Json.readDocument, if_neg unmarked, Json.skipSpaces_of_visible visible, value]
  rfl

theorem readIfWellFormed_of_read {j : Json} (read : Json.read t = .ok j) :
    readIfWellFormed t = .ok (some j) := by
  rw [readIfWellFormed, read]

/-- Whatever its form, an answer is read as its pairs, in their order. -/
theorem parse_of_form {raw : Text} (nodup : (Mapping.keys pairs).Nodup)
    (filled : ∀ kv ∈ pairs, Text.isBlank kv.2 = false) (form : Form pairs raw) :
    parse raw = .ok pairs := by
  have found : ∃ j, value? raw = .ok (some j) ∧ isAnswer j = true ∧
      flatten j = textValues pairs := by
    cases form with
    | bare spells =>
      obtain ⟨j, read, answer, same⟩ := read_of_pairs nodup spells
      refine ⟨j, ?_, answer, same⟩
      rw [value?, readIfWellFormed_of_read read]
      cases j <;> first | rfl | cases answer
    | @fenced name opened doc closed unmarked named blank blankEnd spells =>
      obtain ⟨before, core, behind, spaces, further, spelled, rfl⟩ := spells
      obtain ⟨j, read, answer, same⟩ := read_of_pairs nodup
        ⟨[], core, [], Json.spaces_nil, Json.spaces_nil, spelled, (List.append_nil core).symm⟩
      refine ⟨j, ?_, answer, same⟩
      -- With its fences it is no document, so it is read once more without them.
      have direct : readIfWellFormed (fence ++
          (name ++ (opened ++ (before ++ (core ++ behind) ++ (closed ++ fence))))) = .ok none := by
        rw [readIfWellFormed, read_fence]
      have second := readIfWellFormed_of_read read
      rw [← withoutFences_eq named blank blankEnd spaces further unmarked spelled] at second
      rw [value?, direct]
      change readUnfenced _ = _
      rw [readUnfenced, second]
      rfl
  obtain ⟨j, value, answer, same⟩ := found
  rw [parse, value]
  change (if isAnswer j = true then Except.ok (kept (flatten j)) else _) = _
  rw [if_pos answer, same, kept_textValues filled]

/-- In a block of code, an array of an item that names the word and of one that maps it, with an
    escape in a string. -/
theorem parse_of_form_greetings :
    let pairs : Lexicon := [("Hello", "Salam"), ("Bye", "W\"")]
    let raw : Text := ("```JSON\n[\x7b\"word\": \"Hello\",\"translated\": \"Salam\"\x7d," : Text)
      ++ " \x7b\"Bye\": \"W\\u0022\"\x7d]\n```"
    (Mapping.keys pairs).Nodup ∧ (∀ kv ∈ pairs, Text.isBlank kv.2 = false) ∧ Form pairs raw ∧
      parse raw = .ok pairs := by
  intro pairs raw
  have nodup : (Mapping.keys pairs).Nodup := by decide
  have filled : ∀ kv ∈ pairs, Text.isBlank kv.2 = false := List.forall_mem_cons.2
    ⟨by decide, List.forall_mem_singleton.2 (by decide)⟩
  have unmarked : Unmarked pairs := List.forall_mem_cons.2
    ⟨⟨unfenced_of_not_mem (by decide), unfenced_of_not_mem (by decide)⟩,
      List.forall_mem_singleton.2
        ⟨unfenced_of_not_mem (by decide), unfenced_of_not_mem (by decide)⟩⟩
  have blank : Spaces [0x20] := List.forall_mem_singleton.2 rfl
  have field : ∀ {k q v u : Text}, SpellsText k q → SpellsText v u →
      SpellsField SpellsString (k, .str v) _ := fun key value =>
    .field key Json.spaces_nil blank ⟨_, rfl, value⟩
  have named : SpellsItem ("Hello", "Salam") _ := ⟨_, .named, .filled Json.spaces_nil
    (.more (field (Json.spellsText_plain (by decide)) (Json.spellsText_plain (by decide)))
      Json.spaces_nil Json.spaces_nil
      (.last (field (Json.spellsText_plain (by decide)) (Json.spellsText_plain (by decide)))
        Json.spaces_nil))⟩
  have escape : WideEscape '"' "\\u0022" :=
    ⟨"0022", by decide, ⟨by decide, by decide, by decide⟩, rfl⟩
  have quoted : SpellsText "W\"" _ := ⟨_, .plain (by decide) (by decide) (by decide)
    (.wide escape (fun high => absurd high (by decide)) .nil), rfl⟩
  have single : SpellsItem ("Bye", "W\"") _ := ⟨_, .single (by decide) (by decide),
    .filled Json.spaces_nil
      (.last (field (Json.spellsText_plain (by decide)) quoted) Json.spaces_nil)⟩
  have array : SpellsPairs pairs _ := .array (.filled Json.spaces_nil
    (.more named Json.spaces_nil blank (.last single Json.spaces_nil)))
  have name : ("JSON" : Text).map CodePoint.lower = "json" := by decide
  have lineBreak : Text.isBlank ['\n'] = true := by decide
  have whole : Form pairs _ := .fenced unmarked (.inr name) lineBreak lineBreak
    ⟨[], _, [], Json.spaces_nil, Json.spaces_nil, array, rfl⟩
  have form : Form pairs raw := by
    refine Eq.mp (congrArg (Form pairs) ?_) whole
    decide
  exact ⟨nodup, filled, form, parse_of_form nodup filled form⟩

end Arabize.Answer
