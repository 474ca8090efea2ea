import Arabize.Proofs.Markup.Tags
import Arabize.Proofs.Text.Lower

/-! # Reading a field

Attributes are sought in the text of a page, without regard to its tags.  Where a field of the
name stands, what is found there is that field, whatever follows it (`attribute?_core`,
`attributeLength?_core`).
-/

namespace Arabize

theorem CodePoint.sameLetter_of_lower {c d : CodePoint} (plain : d.Plain) (low : c.lower = d) :
    sameLetter d c = true := by
  have spelled := (lower_eq_iff_spells plain).1 low
  simp only [spells, sameLetter, Bool.or_eq_true] at spelled ⊢
  exact .inl (.inl (.inl spelled))

/-- A plain code point that no letter past ASCII is a relative of. -/
def CodePoint.Alone (d : CodePoint) : Prop := d.Plain ∧ d.val ≠ 0x69 ∧ d.val ≠ 0x73

instance (d : CodePoint) : Decidable d.Alone := inferInstanceAs (Decidable (_ ∧ _))

theorem CodePoint.lower_of_sameLetter {c d : CodePoint} (alone : d.Alone)
    (same : sameLetter d c = true) : c.lower = d := by
  obtain ⟨plain, notI, notS⟩ := alone
  rw [lower_eq_iff_spells plain]
  simpa [sameLetter, spells, notI, notS, plain.2.2] using same

namespace Text

theorem afterAnyCase?_of_lower {spelled : Text} {head : Text} (plain : ∀ d ∈ head, d.Plain)
    (low : spelled.map CodePoint.lower = head) (rest : Text) :
    afterAnyCase? (spelled ++ rest) head = some rest := by
  subst low
  induction spelled with
  | nil => cases rest <;> rfl
  | cons c spelled ih =>
    obtain ⟨here, behind⟩ := List.forall_mem_cons.1 plain
    rw [List.map_cons, List.cons_append, afterAnyCase?,
      if_pos (CodePoint.sameLetter_of_lower here rfl), ih behind]

theorem exists_of_afterAnyCase? {t head rest : Text} (found : afterAnyCase? t head = some rest) :
    ∃ spelled, t = spelled ++ rest ∧ spelled.length = head.length ∧
      ∀ c ∈ spelled, ∃ d ∈ head, CodePoint.sameLetter d c = true := by
  induction head generalizing t with
  | nil => cases t <;> cases found <;> exact ⟨[], rfl, rfl, nofun⟩
  | cons d head ih =>
    cases t with
    | nil => cases found
    | cons c t =>
      rw [afterAnyCase?] at found
      split at found
      next here =>
        obtain ⟨spelled, rfl, same, letters⟩ := ih found
        refine ⟨c :: spelled, rfl, congrArg (· + 1) same,
          List.forall_mem_cons.2 ⟨⟨d, List.mem_cons_self, here⟩, fun x member => ?_⟩⟩
        obtain ⟨e, listed, other⟩ := letters x member
        exact ⟨e, List.mem_cons_of_mem _ listed, other⟩
      next => cases found

theorem afterAnyCase?_eq_some_iff {t head rest : Text} (alone : ∀ d ∈ head, d.Alone) :
    afterAnyCase? t head = some rest ↔
      ∃ spelled : Text, t = spelled ++ rest ∧ spelled.map CodePoint.lower = head := by
  constructor
  · intro found
    induction head generalizing t with
    | nil => cases t <;> cases found <;> exact ⟨[], rfl, rfl⟩
    | cons d head ih =>
      obtain ⟨here, alone⟩ := List.forall_mem_cons.1 alone
      cases t with
      | nil => cases found
      | cons c t =>
        rw [afterAnyCase?] at found
        split at found
        next same =>
          obtain ⟨spelled, rfl, low⟩ := ih alone found
          refine ⟨c :: spelled, rfl, ?_⟩
          rw [List.map_cons, low, CodePoint.lower_of_sameLetter here same]
        next => cases found
  · rintro ⟨spelled, rfl, low⟩
    exact afterAnyCase?_of_lower (fun d member => (alone d member).1) low rest

theorem leadingBlanks_append {u t : Text} (blank : isBlank u = true)
    (visible : Markup.Stops CodePoint.isBlank t) : leadingBlanks (u ++ t) = u := by
  rw [leadingBlanks, List.takeWhile_append_of_pos (List.all_eq_true.1 blank)]
  cases t with
  | nil => exact List.append_nil u
  | cons c t => rw [List.takeWhile_cons_of_neg (by simp [visible c rfl]), List.append_nil]

end Text

namespace Markup

variable {name t rest : Text}

theorem equals?_sign {sign : Sign} (before : Text.isBlank sign.before = true)
    (after : Text.isBlank sign.after = true) (visible : Stops CodePoint.isBlank rest) :
    equals? (sign.text ++ rest) = some (sign.text, rest) := by
  have blanks : Text.leadingBlanks (sign.text ++ rest) = sign.before := by
    rw [Sign.text, List.append_assoc, List.cons_append]
    exact Text.leadingBlanks_append before (stops_cons (by decide) _)
  rw [equals?, blanks, stripLeft_sign before]
  simp only [if_true, Text.leadingBlanks_append after visible, stripLeft_append after visible]
  simp [Sign.text]

theorem quotedValue?_quoted {mark : CodePoint} {value : Text} (quote : isQuote mark = true)
    (absent : mark ∉ value) (rest : Text) :
    quotedValue? ((Value.quoted mark value).text ++ rest) = some value := by
  have isMark : mark = CodePoint.ofChar '"' ∨ mark = CodePoint.ofChar '\'' := by
    simpa [isQuote] using quote
  have inside : ∀ c ∈ value, (c != mark) = true := by
    intro c member
    rw [bne_iff_ne]
    rintro rfl
    exact absent member
  have taken : (value ++ mark :: rest).takeWhile (· != mark) = value := by
    rw [List.takeWhile_append_of_pos inside, List.takeWhile_cons_of_neg (by simp), List.append_nil]
  have spelled : (Value.quoted mark value).text ++ rest = mark :: (value ++ mark :: rest) := by
    simp [Value.text]
  rw [spelled, quotedValue?, if_pos isMark]
  simp [taken]

theorem quotedValue?_bare (stops : Stops isQuote t) : quotedValue? t = none := by
  cases t with
  | nil => rfl
  | cons c t =>
    have other := stops c rfl
    simp only [isQuote, Bool.or_eq_false_iff, beq_eq_false_iff_ne] at other
    rw [quotedValue?, if_neg (not_or.2 other)]

theorem valueLength?_text {value : Value} (formed : value.WellFormed)
    (ends : value.isBare = true → Stops isBareChar rest) :
    valueLength? (value.text ++ rest) = some value.text.length := by
  cases value with
  | quoted mark t =>
    rw [valueLength?, quotedValue?_quoted formed.1 formed.2]
    simp [Value.text]
  | bare t =>
    have chars : (fun c : CodePoint => !(c.isBlank || c == CodePoint.ofChar '"' ||
        c == CodePoint.ofChar '\'' || c == CodePoint.ofChar '>')) = isBareChar := by
      funext c
      rw [isBareChar, isQuote, Bool.or_assoc c.isBlank]
    have taken : (t ++ rest).takeWhile isBareChar = t := by
      rw [List.takeWhile_append_of_pos (List.all_eq_true.1 formed.2)]
      cases rest with
      | nil => exact List.append_nil t
      | cons c rest =>
        rw [List.takeWhile_cons_of_neg (by simp [ends rfl c rfl]), List.append_nil]
    rw [valueLength?, quotedValue?_bare (Value.stops_isQuote formed rest)]
    simp only [Value.text, chars, taken, if_neg formed.1]

/-! ## At the place of a field -/

/-- A field has a name, letter case aside. -/
def Field.Named (name : Text) (f : Field) : Prop := f.name.map CodePoint.lower = name

instance (name : Text) (f : Field) : Decidable (f.Named name) :=
  inferInstanceAs (Decidable (_ = _))

section Place

variable {f : Field} {a : Assigned}

theorem Field.core_assigned (assigned : f.assigned = some a) (rest : Text) :
    f.core ++ rest = f.name ++ (a.sign.text ++ (a.value.text ++ rest)) := by
  simp [core, assigned, Assigned.text]

theorem attribute?_core (plain : ∀ d ∈ name, d.Plain) (named : f.Named name)
    (formed : f.WellFormed) {sign : Sign} {mark : CodePoint} {value : Text}
    (assigned : f.assigned = some ⟨sign, .quoted mark value⟩) (rest : Text) :
    attribute? name (f.core ++ rest) = some ⟨f.name, sign.text, value⟩ := by
  obtain ⟨before, after, quoted⟩ := formed.assigned _ assigned
  have length : f.name.length = name.length := by rw [← named, List.length_map]
  rw [Field.core_assigned assigned, attribute?, Text.afterAnyCase?_of_lower plain named,
    Option.bind_eq_bind, Option.bind_some, equals?_sign before after (Value.stops quoted rest)]
  simp only [Option.bind_eq_bind, Option.bind_some, quotedValue?_quoted quoted.1 quoted.2,
    ← length, List.take_left]
  rfl

theorem attributeLength?_core (plain : ∀ d ∈ name, d.Plain) (named : f.Named name)
    (formed : f.WellFormed) (assigned : f.assigned = some a)
    (ends : f.isOpen = true → Stops isBareChar rest) :
    attributeLength? name (f.core ++ rest) = some f.core.length := by
  obtain ⟨before, after, value⟩ := formed.assigned _ assigned
  have length : f.name.length = name.length := by rw [← named, List.length_map]
  have isOpen : a.value.isBare = f.isOpen := by simp [Field.isOpen, assigned]
  rw [Field.core_assigned assigned, attributeLength?, Text.afterAnyCase?_of_lower plain named,
    Option.bind_eq_bind, Option.bind_some, equals?_sign before after (Value.stops value rest)]
  simp only [Option.bind_eq_bind, Option.bind_some, valueLength?_text value (isOpen ▸ ends),
    ← length]
  simp [Field.core, assigned, Assigned.text, Nat.add_assoc]

end Place

/-! ## Anywhere -/

theorem length_of_equals? {sign : Text} (found : equals? t = some (sign, rest)) :
    t.length = sign.length + rest.length := by
  have parts : ∀ u : Text, u.length = (Text.leadingBlanks u).length + (Text.stripLeft u).length :=
    fun u => by rw [← List.length_append, Text.leadingBlanks, Text.stripLeft,
      List.takeWhile_append_dropWhile]
  simp only [equals?] at found
  split at found
  next => cases found
  next c behind stripped =>
    split at found
    next =>
      cases found
      have whole := parts t
      have inner := parts behind
      rw [stripped] at whole
      simp only [List.length_append, List.length_cons, List.length_nil] at whole ⊢
      omega
    next => cases found

theorem length_of_quotedValue? {value : Text} (found : quotedValue? t = some value) :
    value.length + 2 ≤ t.length := by
  cases t with
  | nil => cases found
  | cons c t =>
    rw [quotedValue?] at found
    split at found
    next =>
      simp only at found
      split at found
      next inside =>
        cases found
        rw [List.length_cons]
        omega
      next => cases found
    next => cases found

/-- What is found of an attribute lies in the text. -/
theorem length_le_of_attribute? {a : Attribute} (found : attribute? name t = some a) :
    a.length ≤ t.length := by
  simp only [attribute?, Option.bind_eq_bind, Option.bind_eq_some_iff] at found
  obtain ⟨behind, sought, ⟨sign, unsigned⟩, signed, value, quoted, made⟩ := found
  cases made
  obtain ⟨spelled, rfl, same, _⟩ := Text.exists_of_afterAnyCase? sought
  have signLength := length_of_equals? signed
  have valueLength : value.length + 2 ≤ unsigned.length := length_of_quotedValue? quoted
  rw [← same, List.take_left, List.length_append, signLength]
  change spelled.length + sign.length + value.length + 2 ≤ _
  omega

end Markup

end Arabize
