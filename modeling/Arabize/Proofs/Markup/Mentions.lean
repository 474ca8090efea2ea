import Arabize.Proofs.Markup.Reading
import Mathlib.Data.List.TakeWhile

/-! # Where a name is mentioned

A text mentions a name if it holds it, not as part of a longer name, with an equals sign behind it.
Only there can something be found where an attribute of that name is sought.  Behind a field the
next one begins with a blank, so that a row of fields is passed over if none of them mentions the
name (`clear_fields`).
-/

namespace Arabize.Markup

variable {name t rest : Text} {before : Option CodePoint}

/-! ## Mentions -/

/-- A name that is sought among the fields of a tag. -/
structure FieldName (name : Text) : Prop where
  nonempty : name ≠ []
  plain : ∀ d ∈ name, d.Plain
  chars : ∀ d ∈ name, isFieldChar d = true

instance (name : Text) : Decidable (FieldName name) :=
  decidable_of_iff (name ≠ [] ∧ (name.all fun d => decide d.Plain && isFieldChar d) = true) <| by
    simp only [List.all_eq_true, Bool.and_eq_true, decide_eq_true_eq]
    exact ⟨fun ⟨nonempty, all⟩ => ⟨nonempty, fun d member => (all d member).1,
        fun d member => (all d member).2⟩,
      fun ⟨nonempty, plain, chars⟩ => ⟨nonempty, fun d member => ⟨plain d member, chars d member⟩⟩⟩

/-- Whether a text begins with a name and an equals sign. -/
def beginsAssigned (name t : Text) : Bool := ((Text.afterAnyCase? t name).bind equals?).isSome

/-- A text holds a name that is not part of a longer one and an equals sign behind it. -/
def Mentions (name t : Text) : Prop :=
  ∃ i, i < t.length ∧ startsName (t.take i).getLast? = true ∧
    beginsAssigned name (t.drop i) = true

instance (name t : Text) : Decidable (Mentions name t) :=
  inferInstanceAs (Decidable (∃ i, i < t.length ∧ _))

theorem isFieldChar_of_isUpperLetter {c : CodePoint} (capital : c.isUpperLetter = true) :
    isFieldChar c = true := by
  have apart : ∀ d : CodePoint, d.isUpperLetter = false → c ≠ d := by
    rintro d other rfl
    exact absurd capital (by simp [other])
  have visible : c.isBlank = false := by
    simp only [CodePoint.isUpperLetter, Bool.and_eq_true, decide_eq_true_eq] at capital
    simp only [CodePoint.isBlank, Bool.or_eq_false_iff, Bool.and_eq_false_iff,
      decide_eq_false_iff_not, beq_eq_false_iff_ne]
    omega
  simp only [isFieldChar, isBareChar, isQuote, visible, Bool.and_eq_true, Bool.not_eq_true',
    Bool.or_eq_false_iff, beq_eq_false_iff_ne, bne_iff_ne, true_and]
  refine ⟨⟨⟨⟨⟨?_, ?_⟩, ?_⟩, ?_⟩, ?_⟩, ?_⟩ <;> exact apart _ (by decide)

/-- The relatives of a letter can stand where it can. -/
theorem isFieldChar_of_sameLetter {c d : CodePoint} (isChar : isFieldChar d = true)
    (same : CodePoint.sameLetter d c = true) : isFieldChar c = true := by
  have single : ∀ e : CodePoint, isFieldChar e = true → c.val = e.val → isFieldChar c = true :=
    fun e isChar value => (Fin.ext value : c = e) ▸ isChar
  simp only [CodePoint.sameLetter, Bool.or_eq_true, Bool.and_eq_true, beq_iff_eq] at same
  rcases same with (((rfl | ⟨capital, -⟩) | ⟨-, dotless | dotted⟩) | ⟨-, long⟩) | ⟨-, kelvin⟩
  · exact isChar
  · exact isFieldChar_of_isUpperLetter capital
  · exact single 0x130 (by decide) dotless
  · exact single 0x131 (by decide) dotted
  · exact single 0x17F (by decide) long
  · exact single 0x212A (by decide) kelvin

theorem beginsAssigned_of_attribute? (found : (attribute? name t).isSome = true) :
    beginsAssigned name t = true := by
  simp only [attribute?, Option.bind_eq_bind, Option.isSome_iff_exists,
    Option.bind_eq_some_iff] at found
  obtain ⟨-, behind, sought, parts, signed, -⟩ := found
  rw [beginsAssigned, sought, Option.bind_some, signed]
  rfl

theorem beginsAssigned_of_attributeLength? (found : (attributeLength? name t).isSome = true) :
    beginsAssigned name t = true := by
  simp only [attributeLength?, Option.bind_eq_bind, Option.isSome_iff_exists,
    Option.bind_eq_some_iff] at found
  obtain ⟨-, behind, sought, parts, signed, -⟩ := found
  rw [beginsAssigned, sought, Option.bind_some, signed]
  rfl

theorem isSome_equals?_iff (t : Text) :
    (equals? t).isSome = true ↔ (Text.stripLeft t).head? = some (CodePoint.ofChar '=') := by
  rw [equals?]
  cases Text.stripLeft t with
  | nil => simp
  | cons c rest =>
    by_cases same : c = CodePoint.ofChar '=' <;> simp [same]

section Ends

variable {u : Text}

/-- No name goes on where a field ends. -/
theorem exists_of_afterAnyCase?_append (chars : ∀ d ∈ name, isFieldChar d = true)
    (ends : Stops isFieldChar rest) {behind : Text}
    (found : Text.afterAnyCase? (u ++ rest) name = some behind) :
    ∃ inner, Text.afterAnyCase? u name = some inner ∧ behind = inner ++ rest := by
  induction name generalizing u with
  | nil =>
    refine ⟨u, by cases u <;> rfl, ?_⟩
    rw [Text.afterAnyCase?.eq_def] at found
    cases u <;> cases rest <;> cases found <;> rfl
  | cons d name ih =>
    obtain ⟨here, chars⟩ := List.forall_mem_cons.1 chars
    cases u with
    | nil =>
      cases rest with
      | nil => cases found
      | cons c rest =>
        rw [List.nil_append, Text.afterAnyCase?] at found
        split at found
        next same =>
          have isChar := isFieldChar_of_sameLetter here same
          rw [ends c rfl] at isChar
          cases isChar
        next => cases found
    | cons c u =>
      rw [List.cons_append, Text.afterAnyCase?] at found
      split at found
      next same =>
        obtain ⟨inner, inside, rfl⟩ := ih chars found
        exact ⟨inner, by rw [Text.afterAnyCase?, if_pos same, inside], rfl⟩
      next => cases found

/-- An equals sign stands behind a name in a field, or nowhere. -/
theorem beginsAssigned_append (chars : ∀ d ∈ name, isFieldChar d = true)
    (ends : Stops isFieldChar rest)
    (unsigned : Stops (· == CodePoint.ofChar '=') (Text.stripLeft rest))
    (found : beginsAssigned name (u ++ rest) = true) : beginsAssigned name u = true := by
  obtain ⟨behind, sought, signed⟩ : ∃ behind, Text.afterAnyCase? (u ++ rest) name = some behind ∧
      (equals? behind).isSome = true := by
    rw [beginsAssigned] at found
    cases sought : Text.afterAnyCase? (u ++ rest) name with
    | none => simp [sought] at found
    | some behind => exact ⟨behind, rfl, by simpa [sought] using found⟩
  obtain ⟨inner, inside, rfl⟩ := exists_of_afterAnyCase?_append chars ends sought
  rw [beginsAssigned, inside, Option.bind_some, isSome_equals?_iff]
  rw [isSome_equals?_iff] at signed
  cases stripped : Text.stripLeft inner with
  | nil =>
    -- Then the sign would be the first thing behind the field.
    have blank : Text.isBlank inner = true :=
      List.all_eq_true.2 (List.dropWhile_eq_nil_iff.1 stripped)
    have same : Text.stripLeft (inner ++ rest) = Text.stripLeft rest :=
      List.dropWhile_append_of_pos (List.all_eq_true.1 blank)
    rw [same] at signed
    exact absurd (unsigned _ signed) (by simp)
  | cons c more =>
    have same : Text.stripLeft (inner ++ rest) = Text.stripLeft inner ++ rest := by
      rw [Text.stripLeft, List.dropWhile_append, if_neg (by simpa [Text.stripLeft] using
        (show Text.stripLeft inner ≠ [] by simp [stripped]))]
      rfl
    rw [same, stripped] at signed
    exact signed

end Ends

/-! ## What is passed over -/

/-- The blanks, as ranges of a first number and a length. -/
def blankRanges : List (Nat × Nat) :=
  [(0x09, 5), (0x1C, 5), (0x85, 1), (0xA0, 1), (0x1680, 1), (0x2000, 11), (0x2028, 2), (0x202F, 1),
    (0x205F, 1), (0x3000, 1)]

theorem exists_blankRange {c : CodePoint} (blank : c.isBlank = true) :
    ∃ r ∈ blankRanges, c.val ∈ List.range' r.1 r.2 := by
  simp only [CodePoint.isBlank, Bool.or_eq_true, Bool.and_eq_true, decide_eq_true_eq,
    beq_iff_eq] at blank
  simp only [blankRanges, List.mem_cons, List.not_mem_nil, or_false, exists_eq_or_imp,
    exists_eq_left, List.mem_range'_1]
  omega

theorem startsName_of_isBlank {c : CodePoint} (blank : c.isBlank = true) :
    startsName (some c) = true := by
  have all : ∀ r ∈ blankRanges, ∀ n ∈ List.range' r.1 r.2,
      startsName (some (CodePoint.ofNat n)) = true := by
    decide +kernel
  have same : CodePoint.ofNat c.val = c := Fin.ext (Nat.mod_eq_of_lt c.isLt)
  obtain ⟨r, member, inside⟩ := exists_blankRange blank
  rw [← same]
  exact all r member _ inside

/-- Behind the blanks before a field a name can start. -/
theorem startsName_lead {f : Field} (formed : f.WellFormed) (before : Option CodePoint) :
    startsName (f.lead.getLast?.or before) = true := by
  obtain ⟨nonempty, blank⟩ := formed.lead
  obtain ⟨lead, c, spelled⟩ := (List.eq_nil_or_concat f.lead).resolve_left nonempty
  rw [spelled, List.concat_eq_append, List.getLast?_concat, Option.some_or]
  exact startsName_of_isBlank (List.all_eq_true.1 blank c (by simp [spelled]))

theorem beginsAssigned_of_not_isFieldChar (sought : FieldName name) {c : CodePoint}
    (ends : isFieldChar c = false) (t : Text) : beginsAssigned name (c :: t) = false := by
  obtain ⟨d, name, rfl⟩ := List.exists_cons_of_ne_nil sought.nonempty
  have other : CodePoint.sameLetter d c = false := by
    refine Bool.eq_false_iff.2 fun same => ?_
    have isChar := isFieldChar_of_sameLetter (sought.chars d List.mem_cons_self) same
    rw [ends] at isChar
    cases isChar
  simp [beginsAssigned, Text.afterAnyCase?, other]

/-- No place of a text assigns a name, given what stands before and behind the text. -/
def Clear (name : Text) (before : Option CodePoint) (u rest : Text) : Prop :=
  ∀ i, i < u.length → startsName ((u.take i).getLast?.or before) = true →
    beginsAssigned name (u.drop i ++ rest) = false

section Clear

variable {u v : Text} {c : CodePoint}

theorem getLast?_cons_or (c : CodePoint) (u : Text) (before : Option CodePoint) :
    (c :: u).getLast?.or before = u.getLast?.or (some c) := by
  rw [List.getLast?_cons, Option.some_or]
  cases u.getLast? <;> rfl

theorem clear_nil (name : Text) (before : Option CodePoint) (rest : Text) :
    Clear name before [] rest :=
  fun i inside => absurd inside (Nat.not_lt_zero i)

theorem clear_cons_iff : Clear name before (c :: u) rest ↔
    (startsName before = true → beginsAssigned name (c :: u ++ rest) = false) ∧
      Clear name (some c) u rest := by
  constructor
  · intro clear
    refine ⟨clear 0 (Nat.succ_pos _), fun i inside starts => ?_⟩
    refine clear (i + 1) (Nat.succ_lt_succ inside) ?_
    rwa [List.take_succ_cons, getLast?_cons_or]
  · rintro ⟨here, clear⟩ i inside starts
    cases i with
    | zero => exact here starts
    | succ i =>
      rw [List.take_succ_cons, getLast?_cons_or] at starts
      exact clear i (Nat.lt_of_succ_lt_succ inside) starts

theorem Clear.append (first : Clear name before u (v ++ rest))
    (later : Clear name (u.getLast?.or before) v rest) : Clear name before (u ++ v) rest := by
  induction u generalizing before with
  | nil => exact later
  | cons c u ih =>
    rw [clear_cons_iff] at first
    rw [getLast?_cons_or] at later
    rw [List.cons_append, clear_cons_iff]
    exact ⟨by simpa using first.1, ih first.2 later⟩

theorem clear_of_not_isFieldChar (sought : FieldName name)
    (ends : ∀ c ∈ u, isFieldChar c = false) : Clear name before u rest := by
  intro i inside _
  rw [List.drop_eq_getElem_cons inside, List.cons_append]
  exact beginsAssigned_of_not_isFieldChar sought (ends _ (List.getElem_mem inside)) _

theorem clear_of_isBlank (sought : FieldName name) (blank : Text.isBlank u = true) :
    Clear name before u rest :=
  clear_of_not_isFieldChar sought fun c member =>
    isFieldChar_of_isBlank (List.all_eq_true.1 blank c member)

theorem clear_of_not_mentions (sought : FieldName name) (silent : ¬ Mentions name u)
    (ends : Stops isFieldChar rest)
    (unsigned : Stops (· == CodePoint.ofChar '=') (Text.stripLeft rest)) :
    Clear name before u rest := by
  refine fun i inside starts => Bool.eq_false_iff.2 fun found => ?_
  refine silent ⟨i, inside, ?_, beginsAssigned_append sought.chars ends unsigned found⟩
  -- At the beginning of a text a name always starts.
  cases last : (u.take i).getLast? with
  | none => rfl
  | some c =>
    rw [last] at starts
    exact starts

/-- A row of fields that do not mention a name is passed over. -/
theorem clear_fields (sought : FieldName name) {fs : List Field} (formed : ∀ f ∈ fs, f.WellFormed)
    (silent : ∀ f ∈ fs, ¬ Mentions name f.core) (ends : LastEnds fs rest) :
    Clear name before (fs.flatMap Field.text) rest := by
  induction fs generalizing before with
  | nil => exact clear_nil _ _ _
  | cons f fs ih =>
    obtain ⟨formedHere, formed⟩ := List.forall_mem_cons.1 formed
    obtain ⟨silentHere, silent⟩ := List.forall_mem_cons.1 silent
    obtain ⟨-, ended, unsigned⟩ := ends.head formed
    rw [List.flatMap_cons, Field.text, List.append_assoc]
    exact (clear_of_isBlank sought formedHere.lead.2).append
      ((clear_of_not_mentions sought silentHere ended unsigned).append
        (ih formed silent ends.tail))

end Clear

end Arabize.Markup
