import Arabize.Proofs.Markup.Mentions
import Arabize.Proofs.Markup.Rewriting
import Arabize.Proofs.Markup.Spelling

/-! # Pages that mention an attribute in its fields only

If nothing in a page but the fields of a name mentions it, then what a pass over the attributes of
that name finds are fields (`foundPlaces_subset`).
-/

namespace Arabize.Markup

variable {name rest t u : Text} {before : Option CodePoint} {n m : Nat} {f : Field}

/-! ## What is found from an offset on -/

/-- Where the attributes of a name stand in a text, given the offset of the text and the code point
    before it. -/
def attributeStarts (name : Text) (n : Nat) (before : Option CodePoint) (t : Text) : List Nat :=
  (cutAttributes name n 0 before t).filterMap fun piece =>
    match piece with
    | .other _ => none
    | .attribute start _ _ => some start

theorem foundPlaces_subset_starts (name content : Text) :
    foundPlaces name content ⊆ attributeStarts name 0 none content := by
  intro m found
  obtain ⟨piece, member, place⟩ := List.mem_filterMap.1 found
  refine List.mem_filterMap.2 ⟨piece, member, ?_⟩
  cases piece with
  | other c => cases place
  | «attribute» start a spelling =>
    simp only at place ⊢
    split at place
    next => cases place
    next => exact place

/-- What holds no place where the name is assigned is passed over. -/
theorem attributeStarts_append (clear : Clear name before u rest) :
    attributeStarts name n before (u ++ rest) =
      attributeStarts name (n + u.length) (u.getLast?.or before) rest := by
  induction u generalizing n before with
  | nil => rfl
  | cons c u ih =>
    obtain ⟨here, clear⟩ := clear_cons_iff.1 clear
    have absent : (if startsName before then attribute? name (c :: (u ++ rest)) else none) =
        none := by
      split
      next starts =>
        rw [← Option.not_isSome_iff_eq_none]
        intro found
        exact absurd (beginsAssigned_of_attribute? found) (by simpa using here starts)
      next => rfl
    have step : attributeStarts name n before (c :: (u ++ rest)) =
        attributeStarts name (n + 1) (some c) (u ++ rest) := by
      simp only [attributeStarts, cutAttributes, absent]
      rfl
    rw [List.cons_append, step, ih clear, List.length_cons, Nat.add_right_comm, Nat.add_assoc,
      getLast?_cons_or]

theorem cutAttributes_skip (name : Text) (n : Nat) (before : Option CodePoint) (u t : Text) :
    cutAttributes name n u.length before (u ++ t) =
      cutAttributes name (n + u.length) 0 (u.getLast?.or before) t := by
  induction u generalizing n before with
  | nil => rfl
  | cons c u ih =>
    rw [List.length_cons, List.cons_append, cutAttributes, ih, getLast?_cons_or,
      Nat.add_right_comm, Nat.add_assoc]

/-! ## Fields -/

/-- A field has a name, letter case aside, and a value in quotes. -/
def Field.Quotes (name : Text) (f : Field) : Prop :=
  f.Named name ∧ (f.assigned.any fun a => !a.value.isBare) = true

instance (name : Text) (f : Field) : Decidable (f.Quotes name) :=
  inferInstanceAs (Decidable (_ ∧ _))

/-- Where the fields of a name stand in a page whose value has quotes. -/
def Page.placesOf (name : Text) (p : Page) : List Nat :=
  (p.places.filter fun place => place.2.Quotes name).map Prod.fst

theorem Field.Quotes.exists_quoted (quotes : f.Quotes name) :
    ∃ sign mark value, f.assigned = some ⟨sign, .quoted mark value⟩ := by
  obtain ⟨-, quoted⟩ := quotes
  cases assigned : f.assigned with
  | none => simp [assigned] at quoted
  | some a =>
    obtain ⟨sign, value⟩ := a
    cases value with
    | bare t => simp [assigned, Value.isBare] at quoted
    | quoted mark t => exact ⟨sign, mark, t, rfl⟩

/-- The attribute that stands where a field does. -/
theorem attribute?_quotes (plain : ∀ d ∈ name, d.Plain) (formed : f.WellFormed)
    (quotes : f.Quotes name) (rest : Text) : ∃ a, attribute? name (f.core ++ rest) = some a ∧
      a.length = f.core.length := by
  obtain ⟨sign, mark, value, assigned⟩ := quotes.exists_quoted
  refine ⟨_, attribute?_core plain quotes.1 formed assigned rest, ?_⟩
  simp only [Attribute.length, Field.core, assigned, Option.elim_some, Assigned.text, Value.text,
    List.length_append, List.length_cons, List.length_nil]
  omega

/-- Where a field stands it is found, and nothing else in it. -/
theorem attributeStarts_core (plain : ∀ d ∈ name, d.Plain) (formed : f.WellFormed)
    (quotes : f.Quotes name) (starts : startsName before = true) :
    attributeStarts name n before (f.core ++ rest) =
      n :: attributeStarts name (n + f.core.length) (f.core.getLast?.or before) rest := by
  obtain ⟨a, found, length⟩ := attribute?_quotes plain formed quotes rest
  obtain ⟨c, core, spelled⟩ := List.exists_cons_of_ne_nil (Field.core_ne_nil formed)
  rw [spelled, List.length_cons] at length
  have short : a.length - 1 = core.length := by omega
  rw [spelled, List.cons_append] at found ⊢
  simp only [attributeStarts, cutAttributes, starts, if_true, found, List.filterMap_cons, short,
    cutAttributes_skip]
  rw [List.length_cons, Nat.add_right_comm, Nat.add_assoc, getLast?_cons_or]

/-- In a row of fields those of the name are found, if no other one mentions it. -/
theorem attributeStarts_fields (sought : FieldName name) (n : Nat) (before : Option CodePoint)
    {fs : List Field}
    (formed : ∀ f ∈ fs, f.WellFormed) (silent : ∀ f ∈ fs, f.Quotes name ∨ ¬ Mentions name f.core)
    (ends : LastEnds fs rest) :
    ∃ behind, attributeStarts name n before (fs.flatMap Field.text ++ rest) =
      ((fieldPlaces n fs).filter fun place => place.2.Quotes name).map Prod.fst ++
        attributeStarts name (n + (fs.flatMap Field.text).length) behind rest := by
  induction fs generalizing n before with
  | nil => exact ⟨before, rfl⟩
  | cons f fs ih =>
    obtain ⟨formedHere, formed⟩ := List.forall_mem_cons.1 formed
    obtain ⟨silentHere, silent⟩ := List.forall_mem_cons.1 silent
    obtain ⟨-, ended, unsigned⟩ := ends.head formed
    have size : n + f.lead.length + f.core.length = n + f.text.length := by
      rw [Field.text, List.length_append, Nat.add_assoc]
    rw [List.flatMap_cons, List.append_assoc, Field.text, List.append_assoc,
      attributeStarts_append (clear_of_isBlank sought formedHere.lead.2), fieldPlaces,
      List.length_append, ← Field.text, ← Nat.add_assoc]
    by_cases quotes : f.Quotes name
    · rw [attributeStarts_core sought.plain formedHere quotes (startsName_lead formedHere _), size,
        List.filter_cons_of_pos (by simpa using quotes)]
      obtain ⟨behind, found⟩ := ih _ _ formed silent ends.tail
      exact ⟨behind, congrArg _ found⟩
    · rw [attributeStarts_append (clear_of_not_mentions sought
          (silentHere.resolve_left quotes) ended unsigned), size,
        List.filter_cons_of_neg (by simpa using quotes)]
      exact ih _ _ formed silent ends.tail

/-! ## Tags and pages -/

/-- Nothing in a tag and behind it but the fields of a name mentions it. -/
structure Tag.Silent (name : Text) (t : Tag) : Prop where
  opening : ¬ Mentions name t.name
  fields : ∀ f ∈ t.fields, f.Quotes name ∨ ¬ Mentions name f.core
  behind : ¬ Mentions name t.behind

/-- Nothing in a page but the fields of a name mentions it. -/
structure Page.Silent (name : Text) (p : Page) : Prop where
  head : ¬ Mentions name p.head
  tags : ∀ t ∈ p.tags, t.Silent name

instance (name : Text) (t : Tag) : Decidable (t.Silent name) :=
  decidable_of_iff (_ ∧ _ ∧ _) ⟨fun ⟨opening, fields, behind⟩ => ⟨opening, fields, behind⟩,
    fun ⟨opening, fields, behind⟩ => ⟨opening, fields, behind⟩⟩

instance (name : Text) (p : Page) : Decidable (p.Silent name) :=
  decidable_of_iff (_ ∧ _) ⟨fun ⟨head, tags⟩ => ⟨head, tags⟩, fun ⟨head, tags⟩ => ⟨head, tags⟩⟩

theorem stops_tags {tags : List Tag} (formed : ∀ t ∈ tags, t.WellFormed) :
    Stops isFieldChar (tags.flatMap Tag.text) ∧
      Stops (· == CodePoint.ofChar '=') (Text.stripLeft (tags.flatMap Tag.text)) := by
  cases tags with
  | nil => exact ⟨stops_nil, stops_nil⟩
  | cons t tags => exact ⟨stops_cons (by decide) _, stops_cons (by decide) _⟩

theorem Tag.stops_name {t : Tag} (formed : t.WellFormed) (rest : Text) :
    Stops isFieldChar (t.fields.flatMap Field.text ++ (t.gap ++ (t.close ++ rest))) ∧
      Stops (· == CodePoint.ofChar '=')
        (Text.stripLeft (t.fields.flatMap Field.text ++ (t.gap ++ (t.close ++ rest)))) := by
  cases fields : t.fields with
  | nil =>
    refine ⟨stops_gap formed (fun _ => isFieldChar_of_isBlank) (by decide) (by decide) rest, ?_⟩
    rw [List.flatMap_nil, List.nil_append, stripLeft_gap formed]
    exact stops_close (by decide) (by decide) rest
  | cons f fs =>
    have ends := f.ends_text (formed.fields f (by rw [fields]; exact List.mem_cons_self))
      (fs.flatMap Field.text ++ (t.gap ++ (t.close ++ rest)))
    rw [List.flatMap_cons, List.append_assoc]
    exact ⟨ends.name, ends.sign⟩

theorem Tag.not_isFieldChar_close (t : Tag) : ∀ c ∈ t.close, isFieldChar c = false := by
  have ends : isFieldChar (CodePoint.ofChar '/') = false ∧
      isFieldChar (CodePoint.ofChar '>') = false := by decide
  cases closed : t.closed <;> simp [Tag.close, closed, ends]

theorem attributeStarts_tags (sought : FieldName name) {tags : List Tag}
    (formed : ∀ t ∈ tags, t.WellFormed) (silent : ∀ t ∈ tags, t.Silent name) :
    attributeStarts name n before (tags.flatMap Tag.text) =
      ((tagPlaces n tags).filter fun place => place.2.Quotes name).map Prod.fst := by
  induction tags generalizing n before with
  | nil => rfl
  | cons t tags ih =>
    obtain ⟨formedHere, formed⟩ := List.forall_mem_cons.1 formed
    obtain ⟨⟨opening, fields, text⟩, silent⟩ := List.forall_mem_cons.1 silent
    obtain ⟨ended, unsigned⟩ := t.stops_name formedHere (t.behind ++ tags.flatMap Tag.text)
    obtain ⟨endedToo, unsignedToo⟩ := stops_tags formed
    -- A tag is passed over part by part: only its fields can give a place.
    have split : (t :: tags).flatMap Tag.text = [CodePoint.ofChar '<'] ++ (t.name ++
        (t.fields.flatMap Field.text ++ (t.gap ++ (t.close ++
          (t.behind ++ tags.flatMap Tag.text))))) := by
      simp [Tag.text]
    have mark : ∀ c ∈ [CodePoint.ofChar '<'], isFieldChar c = false := by
      rw [List.forall_mem_singleton]
      decide
    obtain ⟨behind, found⟩ := attributeStarts_fields sought (n + 1 + t.name.length)
      (t.name.getLast?.or (some (CodePoint.ofChar '<'))) formedHere.fields fields
      (t.endsFields formedHere (t.behind ++ tags.flatMap Tag.text)).last
    rw [split, attributeStarts_append (clear_of_not_isFieldChar sought mark),
      attributeStarts_append (clear_of_not_mentions sought opening ended unsigned)]
    change attributeStarts name (n + 1 + t.name.length) _ _ = _
    have size : n + 1 + t.name.length + (t.fields.flatMap Field.text).length + t.gap.length +
        t.close.length + t.behind.length = n + t.text.length := by
      simp only [Tag.text, List.length_append, List.length_cons]
      omega
    have first : n + 1 + t.name.length = n + (t.name.length + 1) := by omega
    rw [List.getLast?_singleton, Option.some_or, found,
      attributeStarts_append (clear_of_isBlank sought formedHere.gap),
      attributeStarts_append (clear_of_not_isFieldChar sought t.not_isFieldChar_close),
      attributeStarts_append (clear_of_not_mentions sought text endedToo unsignedToo),
      ih formed silent, size, first, ← List.map_append, ← List.filter_append]
    rfl

/-- In a page in which nothing else mentions a name the fields of that name are found. -/
theorem attributeStarts_page (sought : FieldName name) {p : Page} (formed : p.WellFormed)
    (silent : p.Silent name) : attributeStarts name 0 none p.text = p.placesOf name := by
  obtain ⟨ended, unsigned⟩ := stops_tags formed.tags
  rw [Page.text, attributeStarts_append
    (clear_of_not_mentions sought silent.head ended unsigned), Nat.zero_add,
    attributeStarts_tags sought formed.tags silent.tags, Page.placesOf, Page.places]

theorem foundPlaces_subset (sought : FieldName name) {p : Page} (formed : p.WellFormed)
    (silent : p.Silent name) : foundPlaces name p.text ⊆ p.placesOf name := by
  rw [← attributeStarts_page sought formed silent]
  exact foundPlaces_subset_starts name p.text

end Arabize.Markup
