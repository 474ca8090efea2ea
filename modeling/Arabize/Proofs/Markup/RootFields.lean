import Arabize.Markup.Page
import Arabize.Proofs.Markup.Spelling
import Arabize.Proofs.Markup.Mentions
import Arabize.Proofs.Text.Words

/-! # The fields of the root tag

To mark the root tag is to set two of its fields (`markRoot_fields`): the first one of the name
that has a value is set in place, else a field is put behind the others, and all others stay as
they are.  The field is sought in the text of the tag, so this asks that no field before it holds
its name with an equals sign behind it.  A field without a value is none that is found.
-/

namespace Arabize.Markup

variable {name rest t u : Text} {before : Option CodePoint} {n : Nat}

/-! ## Setting a field -/

/-- A field has a name, letter case aside, and a value. -/
def Field.Assigns (name : Text) (f : Field) : Prop := f.Named name ∧ f.assigned.isSome = true

instance (name : Text) (f : Field) : Decidable (f.Assigns name) :=
  inferInstanceAs (Decidable (_ ∧ _))

/-- The field that sets a name to a value in double quotes. -/
def Field.setting (lead name value : Text) : Field :=
  ⟨lead, name, some ⟨⟨[], []⟩, .quoted (CodePoint.ofChar '"') value⟩⟩

/-- Sets a name to a value: in place of the first field that assigns it, else at the end. -/
def assign (name value : Text) : List Field → List Field
  | [] => [.setting " " name value]
  | f :: fs =>
    if f.Assigns name then .setting f.lead name value :: fs else f :: assign name value fs

/-- The fields with one blank before the first one. -/
def spaced : List Field → List Field
  | [] => []
  | f :: fs => { f with lead := " " } :: fs

/-- The text of the fields without the blanks before the first one. -/
def joined : List Field → Text
  | [] => []
  | f :: fs => f.core ++ fs.flatMap Field.text

/-- No field before the one that assigns a name mentions it. -/
def Unmistaken (name : Text) (fields : List Field) : Prop :=
  ∀ f ∈ fields.takeWhile fun f => ¬ f.Assigns name, ¬ Mentions name f.core

instance (name : Text) (fields : List Field) : Decidable (Unmistaken name fields) :=
  inferInstanceAs (Decidable (∀ f ∈ _, _))

/-! ## Where a field is found -/

/-- What holds no place where the name is assigned is passed over. -/
theorem findAttribute?_append (clear : Clear name before u rest) :
    findAttribute? name n before (u ++ rest) =
      findAttribute? name (n + u.length) (u.getLast?.or before) rest := by
  induction u generalizing n before with
  | nil => rfl
  | cons c u ih =>
    obtain ⟨here, clear⟩ := clear_cons_iff.1 clear
    have absent : (if startsName before then attributeLength? name (c :: (u ++ rest)) else none) =
        none := by
      split
      next starts =>
        rw [← Option.not_isSome_iff_eq_none]
        intro found
        exact absurd (beginsAssigned_of_attributeLength? found) (by simpa using here starts)
      next => rfl
    rw [List.cons_append, findAttribute?, absent]
    simp only
    rw [ih clear, List.length_cons, Nat.add_right_comm, Nat.add_assoc, getLast?_cons_or]

variable {f : Field} {fs front back : List Field} {value : Text}

theorem findAttribute?_assigned (sought : FieldName name) (formed : f.WellFormed)
    (assigns : f.Assigns name) (ends : f.Ends rest) (starts : startsName before = true) :
    findAttribute? name n before (f.core ++ rest) = some (n, f.core.length) := by
  obtain ⟨a, assigned⟩ := Option.isSome_iff_exists.1 assigns.2
  have here := attributeLength?_core sought.plain assigns.1 formed assigned ends.value
  have nonempty : f.core ++ rest ≠ [] := by simp [Field.core, formed.name.1]
  obtain ⟨c, behind, spelled⟩ := List.exists_cons_of_ne_nil nonempty
  rw [spelled] at here ⊢
  simp only [findAttribute?, starts, here, if_true]

/-! ## Where a field stands -/

theorem clear_joined (sought : FieldName name) (formed : ∀ f ∈ fs, f.WellFormed)
    (silent : ∀ f ∈ fs, ¬ Mentions name f.core) (ends : LastEnds fs rest) :
    Clear name before (joined fs) rest := by
  cases fs with
  | nil => exact clear_nil _ _ _
  | cons f fs =>
    obtain ⟨formedHere, formed⟩ := List.forall_mem_cons.1 formed
    obtain ⟨silentHere, silent⟩ := List.forall_mem_cons.1 silent
    obtain ⟨-, ended, unsigned⟩ := ends.head formed
    exact (clear_of_not_mentions sought silentHere ended unsigned).append
      (clear_fields sought formed silent ends.tail)

/-- A field is set in place of one of the name, or behind all fields. -/
theorem assign_cases (name value : Text) (fs : List Field) :
    (∃ front f back, fs = front ++ f :: back ∧ (∀ g ∈ front, ¬ g.Assigns name) ∧
        f.Assigns name ∧ assign name value fs = front ++ .setting f.lead name value :: back) ∨
      ((∀ g ∈ fs, ¬ g.Assigns name) ∧ assign name value fs = fs ++ [.setting " " name value]) := by
  induction fs with
  | nil => exact .inr ⟨by simp, rfl⟩
  | cons f fs ih =>
    by_cases here : f.Assigns name
    · exact .inl ⟨[], f, fs, rfl, by simp, here, if_pos here⟩
    · rcases ih with ⟨front, g, back, rfl, others, assigns, set⟩ | ⟨others, set⟩
      · refine .inl ⟨f :: front, g, back, rfl, List.forall_mem_cons.2 ⟨here, others⟩, assigns, ?_⟩
        rw [assign, if_neg here, set, List.cons_append]
      · refine .inr ⟨List.forall_mem_cons.2 ⟨here, others⟩, ?_⟩
        rw [assign, if_neg here, set, List.cons_append]

/-- The fields before the one that is set. -/
theorem Unmistaken.silent (unmistaken : Unmistaken name (front ++ back))
    (others : ∀ g ∈ front, ¬ g.Assigns name) : ∀ g ∈ front, ¬ Mentions name g.core := by
  intro g member
  refine unmistaken g ?_
  rw [List.takeWhile_append_of_pos (by simpa using others)]
  exact List.mem_append_left _ member

theorem lastEnds_nil (fs : List Field) : LastEnds fs [] :=
  fun _ _ => ⟨fun _ => stops_nil, stops_nil, stops_nil⟩

theorem ends_flatMap (f : Field) (formed : ∀ g ∈ back, g.WellFormed) :
    f.Ends (back.flatMap Field.text) := by
  have ends := (lastEnds_nil (f :: back)).head formed
  rwa [List.append_nil] at ends

theorem joined_append (nonempty : front ≠ []) (back : List Field) :
    joined (front ++ back) = joined front ++ back.flatMap Field.text := by
  cases front with
  | nil => exact absurd rfl nonempty
  | cons f front => simp [joined]

/-- What is found is the first field that assigns the name. -/
theorem findAttribute?_first (sought : FieldName name)
    (formed : ∀ g ∈ front ++ f :: back, g.WellFormed) (others : ∀ g ∈ front, ¬ g.Assigns name)
    (assigns : f.Assigns name) (unmistaken : Unmistaken name (front ++ f :: back)) :
    ∃ before, findAttribute? name 0 none (joined (front ++ f :: back)) =
        some (before.length, f.core.length) ∧
      joined (front ++ f :: back) = before ++ (f.core ++ back.flatMap Field.text) ∧
      ∀ value, joined (front ++ .setting f.lead name value :: back) =
        before ++ ((Field.setting f.lead name value).core ++ back.flatMap Field.text) := by
  obtain ⟨formedFront, formedHere, formedBack⟩ :
      (∀ g ∈ front, g.WellFormed) ∧ f.WellFormed ∧ ∀ g ∈ back, g.WellFormed := by
    rw [List.forall_mem_append, List.forall_mem_cons] at formed
    exact formed
  by_cases first : front = []
  · subst first
    refine ⟨[], ?_, rfl, fun _ => rfl⟩
    exact findAttribute?_assigned sought formedHere assigns (ends_flatMap f formedBack) rfl
  · have ends : LastEnds front (f.lead ++ (f.core ++ back.flatMap Field.text)) := by
      intro g _
      rw [← List.append_assoc]
      exact g.ends_text formedHere _
    have split : joined (front ++ f :: back) =
        joined front ++ (f.lead ++ (f.core ++ back.flatMap Field.text)) := by
      simp [joined_append first, Field.text]
    refine ⟨joined front ++ f.lead, ?_, ?_, fun value => ?_⟩
    -- Nothing before the field is taken for it, be it a field or the blanks between two.
    · rw [split,
        findAttribute?_append (clear_joined sought formedFront (unmistaken.silent others) ends),
        findAttribute?_append (clear_of_isBlank sought formedHere.lead.2),
        findAttribute?_assigned sought formedHere assigns (ends_flatMap f formedBack)
          (startsName_lead formedHere _)]
      simp
    · rw [split, List.append_assoc]
    · simp [joined_append first, Field.text, Field.setting]

/-- To put an attribute into the text of some fields is to set a field. -/
theorem putAttribute_joined (sought : FieldName name) (formed : ∀ f ∈ fs, f.WellFormed)
    (unmistaken : Unmistaken name fs) (value : Text) :
    putAttribute (joined fs) name (Field.setting " " name value).core =
      joined (assign name value fs) := by
  rcases assign_cases name value fs with
    ⟨front, f, back, rfl, others, assigns, set⟩ | ⟨others, set⟩
  · obtain ⟨before, found, whole, after⟩ :=
      findAttribute?_first sought formed others assigns unmistaken
    rw [putAttribute, found, set, after, whole]
    simp [← List.drop_drop]
    rfl
  · have silent : ∀ f ∈ fs, ¬ Mentions name f.core := by
      rw [← List.append_nil fs] at unmistaken
      exact unmistaken.silent others
    have absent : findAttribute? name 0 none (joined fs) = none := by
      rw [← List.append_nil (joined fs),
        findAttribute?_append (clear_joined sought formed silent (lastEnds_nil fs))]
      rfl
    rw [putAttribute, absent, set]
    cases fs with
    | nil => simp [joined]
    | cons f fs =>
      have nonempty : joined (f :: fs) ≠ [] := by
        simp [joined, Field.core, (formed f List.mem_cons_self).name.1]
      rw [joined_append (List.cons_ne_nil f fs)]
      simp [nonempty, Field.text, Field.setting]

/-! ## The text of a tag -/

theorem endsVisible_value {x : Value} (formed : x.WellFormed) :
    Text.EndsVisible x.text ∧ x.text ≠ [] := by
  cases x with
  | bare t =>
    exact ⟨Text.endsVisible_of_not_blank fun c member =>
      isBlank_of_isBareChar (List.all_eq_true.1 formed.2 c member), formed.1⟩
  | quoted mark t =>
    refine ⟨?_, List.cons_ne_nil _ _⟩
    have last : Text.EndsVisible [mark] := Text.endsVisible_of_not_blank <| by
      simpa using isBlank_of_isQuote formed.1
    exact last.behind (List.cons_ne_nil _ _) (mark :: t)

theorem endsVisible_core (formed : f.WellFormed) : Text.EndsVisible f.core ∧ f.core ≠ [] := by
  refine ⟨?_, by simp [Field.core, formed.name.1]⟩
  cases assigned : f.assigned with
  | none =>
    rw [Field.core, assigned, Option.elim_none, List.append_nil]
    exact Text.endsVisible_of_not_blank fun c member =>
      isBlank_of_isBareChar (isBareChar_of_isFieldChar (List.all_eq_true.1 formed.name.2 c member))
  | some a =>
    obtain ⟨visible, nonempty⟩ := endsVisible_value (formed.assigned a assigned).value
    rw [Field.core, assigned, Option.elim_some, Assigned.text, ← List.append_assoc]
    exact visible.behind nonempty _

theorem endsVisible_joined (formed : ∀ f ∈ fs, f.WellFormed) : Text.EndsVisible (joined fs) := by
  have behind : ∀ {gs : List Field}, (∀ g ∈ gs, g.WellFormed) →
      Text.EndsVisible (gs.flatMap Field.text) := by
    intro gs formed
    induction gs with
    | nil => exact fun c last => by cases last
    | cons g gs ih =>
      obtain ⟨here, formed⟩ := List.forall_mem_cons.1 formed
      obtain ⟨visible, nonempty⟩ := endsVisible_core here
      rw [List.flatMap_cons]
      exact (visible.behind nonempty g.lead).append (ih formed)
  cases fs with
  | nil => exact fun c last => by cases last
  | cons f fs =>
    obtain ⟨here, formed⟩ := List.forall_mem_cons.1 formed
    exact (endsVisible_core here).1.append (behind formed)

theorem strip_fields (formed : ∀ f ∈ fs, f.WellFormed) {gap : Text}
    (blank : Text.isBlank gap = true) :
    Text.strip (fs.flatMap Field.text ++ gap) = joined fs := by
  have front : Text.stripLeft (fs.flatMap Field.text ++ gap) =
      if fs = [] then [] else joined fs ++ gap := by
    cases fs with
    | nil => exact List.dropWhile_eq_nil_iff.2 (List.all_eq_true.1 blank)
    | cons f fs =>
      rw [List.flatMap_cons, List.append_assoc, stripLeft_field (formed f List.mem_cons_self)]
      simp [joined]
  have visible : Stops CodePoint.isBlank (joined fs).reverse := by
    intro c first
    rw [List.head?_reverse] at first
    exact endsVisible_joined formed c first
  rw [Text.strip, front]
  split
  next none =>
    subst none
    rfl
  next =>
    rw [Text.stripRight, List.reverse_append, stripLeft_append (by
      rw [Text.isBlank, List.all_reverse]; exact blank) visible, List.reverse_reverse]

/-- A text begins with a root tag. -/
def OpensRoot (t : Text) : Prop :=
  ∃ spelled attributes rest, t = spelled ++ attributes ++ CodePoint.ofChar '>' :: rest ∧
    spelled.map CodePoint.lower = "<html" ∧ CodePoint.ofChar '>' ∉ attributes ∧
    ∀ c ∈ attributes.head?, c.isBlank = true

theorem rootTag?_of_opens {spelled attributes : Text}
    (opens : spelled.map CodePoint.lower = "<html") (free : CodePoint.ofChar '>' ∉ attributes)
    (blank : ∀ c ∈ attributes.head?, c.isBlank = true) (rest : Text) :
    rootTag? (spelled ++ attributes ++ CodePoint.ofChar '>' :: rest) =
      some (attributes, attributes.length + 6) := by
  have plain : ∀ d ∈ Text.ofString "<html", d.Plain :=
    (show Text.Sought "<html" by decide).plain
  rw [List.append_assoc, rootTag?, Text.afterAnyCase?_of_lower plain opens]
  cases attributes with
  | nil => rfl
  | cons c attributes =>
    have isBlank : c.isBlank = true := blank c rfl
    obtain ⟨notEnd, free⟩ : CodePoint.ofChar '>' ≠ c ∧ CodePoint.ofChar '>' ∉ attributes := by
      rwa [List.mem_cons, not_or] at free
    have inside : ∀ d ∈ attributes, (d != CodePoint.ofChar '>') = true := by
      intro d member
      rw [bne_iff_ne]
      rintro rfl
      exact free member
    have taken : (attributes ++ CodePoint.ofChar '>' :: rest).takeWhile
        (· != CodePoint.ofChar '>') = attributes := by
      rw [List.takeWhile_append_of_pos inside, List.takeWhile_cons_of_neg (by simp),
        List.append_nil]
    simp [isBlank, notEnd.symm, taken]

/-- What ends before a `>` is the longest beginning without one. -/
theorem exists_of_takeWhile_lt {p : CodePoint → Bool}
    (shorter : (t.takeWhile p).length < t.length) :
    ∃ c rest, t = t.takeWhile p ++ c :: rest ∧ p c = false := by
  have parts : t.takeWhile p ++ t.dropWhile p = t := List.takeWhile_append_dropWhile
  cases dropped : t.dropWhile p with
  | nil =>
    rw [dropped, List.append_nil] at parts
    rw [parts] at shorter
    exact absurd shorter (Nat.lt_irrefl _)
  | cons c rest =>
    rw [dropped] at parts
    refine ⟨c, rest, parts.symm, ?_⟩
    have first := List.head?_dropWhile_not p t
    rw [dropped] at first
    exact first

theorem opensRoot_of_rootTag? (found : (rootTag? t).isSome = true) : OpensRoot t := by
  have alone : ∀ d ∈ Text.ofString "<html", d.Alone := by
    have all : (Text.ofString "<html").all fun d => decide d.Alone := by decide
    exact fun d member => of_decide_eq_true (List.all_eq_true.1 all d member)
  rw [rootTag?] at found
  cases sought : Text.afterAnyCase? t "<html" with
  | none =>
    rw [sought] at found
    cases found
  | some behind =>
    rw [sought] at found
    obtain ⟨spelled, rfl, low⟩ := (Text.afterAnyCase?_eq_some_iff alone).1 sought
    cases behind with
    | nil => cases found
    | cons c rest =>
      simp only at found
      split at found
      next isEnd => exact ⟨spelled, [], rest, by simp [isEnd], low, by simp, by simp⟩
      next notEnd =>
        split at found
        next blank =>
          split at found
          next shorter =>
            obtain ⟨d, more, split, isEnd⟩ := exists_of_takeWhile_lt shorter
            obtain rfl : d = CodePoint.ofChar '>' := by simpa using isEnd
            refine ⟨spelled, c :: rest.takeWhile (· != CodePoint.ofChar '>'), more, ?_, low, ?_, ?_⟩
            · rw [List.append_assoc, List.cons_append, ← split]
            · intro member
              rcases List.mem_cons.1 member with same | inside
              · exact notEnd same.symm
              · simpa using List.mem_takeWhile_imp inside
            · rintro e ⟨⟩
              exact blank
          next => cases found
        next => cases found

theorem opensRoot_iff (t : Text) : OpensRoot t ↔ (rootTag? t).isSome = true := by
  refine ⟨?_, opensRoot_of_rootTag?⟩
  rintro ⟨spelled, attributes, rest, rfl, opens, free, blank⟩
  rw [rootTag?_of_opens opens free blank]
  rfl

instance (t : Text) : Decidable (OpensRoot t) := decidable_of_iff _ (opensRoot_iff t).symm

/-- The first root tag is the one that is marked. -/
theorem markRoot_append {tag attributes : Text} {width : Nat}
    (first : ∀ i, i < u.length → ¬ OpensRoot ((u ++ tag).drop i))
    (found : rootTag? tag = some (attributes, width)) :
    markRoot (u ++ tag) = u ++ rootTag attributes ++ tag.drop width := by
  induction u with
  | nil =>
    cases tag with
    | nil => cases found
    | cons c tag => simp [markRoot, found]
  | cons c u ih =>
    have absent : rootTag? (c :: (u ++ tag)) = none := by
      rw [← Option.not_isSome_iff_eq_none, ← opensRoot_iff]
      exact first 0 (Nat.succ_pos _)
    rw [List.cons_append, markRoot, absent]
    simp [ih fun i inside => first (i + 1) (Nat.succ_lt_succ inside)]

/-! ## The fields of a marked root tag -/

theorem wellFormed_setting {lead : Text} (blank : lead ≠ [] ∧ Text.isBlank lead = true)
    (named : name ≠ [] ∧ name.all isFieldChar = true)
    (unquoted : CodePoint.ofChar '"' ∉ value) : (Field.setting lead name value).WellFormed := by
  refine ⟨blank, named, ?_⟩
  rintro a ⟨⟩
  exact ⟨rfl, rfl, by decide, unquoted⟩

theorem wellFormed_assign (sought : FieldName name) (unquoted : CodePoint.ofChar '"' ∉ value)
    (formed : ∀ f ∈ fs, f.WellFormed) : ∀ f ∈ assign name value fs, f.WellFormed := by
  have named := And.intro sought.nonempty (List.all_eq_true.2 sought.chars)
  induction fs with
  | nil =>
    rw [assign, List.forall_mem_singleton]
    exact wellFormed_setting (by decide) named unquoted
  | cons f fs ih =>
    obtain ⟨here, behind⟩ := List.forall_mem_cons.1 formed
    rw [assign]
    split
    next => exact List.forall_mem_cons.2 ⟨wellFormed_setting here.lead named unquoted, behind⟩
    next => exact List.forall_mem_cons.2 ⟨here, ih behind⟩

theorem wellFormed_spaced (formed : ∀ f ∈ fs, f.WellFormed) : ∀ f ∈ spaced fs, f.WellFormed := by
  cases fs with
  | nil => exact formed
  | cons f fs =>
    obtain ⟨⟨_, name, assigned⟩, behind⟩ := List.forall_mem_cons.1 formed
    have blank : Text.ofString " " ≠ [] ∧ Text.isBlank (Text.ofString " ") = true := by decide
    exact List.forall_mem_cons.2 ⟨⟨blank, name, assigned⟩, behind⟩

theorem text_spaced (nonempty : fs ≠ []) :
    (spaced fs).flatMap Field.text = Text.ofString " " ++ joined fs := by
  cases fs with
  | nil => exact absurd rfl nonempty
  | cons f fs => simp [spaced, joined, Field.text, Field.core]

theorem assign_ne_nil (name value : Text) (fs : List Field) : assign name value fs ≠ [] := by
  cases fs with
  | nil => exact List.cons_ne_nil _ _
  | cons f fs =>
    rw [assign]
    split <;> exact List.cons_ne_nil _ _

/-- Some fields with blanks behind them begin with a blank. -/
theorem isBlank_of_head? (formed : ∀ f ∈ fs, f.WellFormed) {gap : Text}
    (blank : Text.isBlank gap = true) :
    ∀ c ∈ (fs.flatMap Field.text ++ gap).head?, c.isBlank = true := by
  intro c head
  cases fs with
  | nil => exact List.all_eq_true.1 blank c (List.mem_of_head? head)
  | cons f fs =>
    obtain ⟨nonempty, blank⟩ := (formed f List.mem_cons_self).lead
    obtain ⟨d, lead, spelled⟩ := List.exists_cons_of_ne_nil nonempty
    rw [List.flatMap_cons, Field.text, spelled] at head
    cases head
    exact List.all_eq_true.1 blank c (by simp [spelled])

/-- The fields that a root tag has when it is marked. -/
def markedFields (fields : List Field) : List Field :=
  spaced (assign "lang" "ar" (assign "dir" "rtl" fields))

/-- The first root tag of a page is written with the same fields, but for its direction and its
    language: each is set in place of the first field that has a value for it, else at the end.
    This asks that no field before that one mentions it. -/
theorem markRoot_fields {front spelled gap after : Text} {fields : List Field}
    (opens : spelled.map CodePoint.lower = "<html") (formed : ∀ f ∈ fields, f.WellFormed)
    (blank : Text.isBlank gap = true)
    (free : CodePoint.ofChar '>' ∉ fields.flatMap Field.text)
    (first : ∀ i, i < front.length → ¬ OpensRoot ((front ++ (spelled ++
      (fields.flatMap Field.text ++ gap) ++ CodePoint.ofChar '>' :: after)).drop i))
    (direction : Unmistaken "dir" fields)
    (language : Unmistaken "lang" (assign "dir" "rtl" fields)) :
    markRoot (front ++ (spelled ++ (fields.flatMap Field.text ++ gap) ++
        CodePoint.ofChar '>' :: after)) =
      front ++ (Text.ofString "<html" ++ (markedFields fields).flatMap Field.text ++
        CodePoint.ofChar '>' :: after) ∧
    ∀ f ∈ markedFields fields, f.WellFormed := by
  have dir : FieldName "dir" := by decide
  have lang : FieldName "lang" := by decide
  have directed : ∀ f ∈ assign "dir" "rtl" fields, f.WellFormed :=
    wellFormed_assign dir (by decide) formed
  have marked : ∀ f ∈ assign "lang" "ar" (assign "dir" "rtl" fields), f.WellFormed :=
    wellFormed_assign lang (by decide) directed
  refine ⟨?_, wellFormed_spaced marked⟩
  have freeGap : CodePoint.ofChar '>' ∉ gap := by
    intro member
    exact absurd (List.all_eq_true.1 blank _ member) (by decide)
  have found := rootTag?_of_opens opens (by rw [List.mem_append, not_or]; exact ⟨free, freeGap⟩)
    (isBlank_of_head? formed blank) after
  have length : spelled.length = 5 := by simpa [Text.ofString] using congrArg List.length opens
  have behind :
      (spelled ++ (fields.flatMap Field.text ++ gap) ++ CodePoint.ofChar '>' :: after).drop
        ((fields.flatMap Field.text ++ gap).length + 6) = after := by
    have whole : (fields.flatMap Field.text ++ gap).length + 6 =
        (spelled ++ (fields.flatMap Field.text ++ gap) ++ [CodePoint.ofChar '>']).length := by
      simp only [List.length_append, List.length_singleton, length]
      omega
    rw [whole, List.append_cons _ (CodePoint.ofChar '>') after, List.drop_left]
  -- The direction is set first, so the language is put into fields that have a direction.
  have written : rootTag (fields.flatMap Field.text ++ gap) =
      Text.ofString "<html" ++ (markedFields fields).flatMap Field.text ++
        [CodePoint.ofChar '>'] := by
    rw [rootTag, strip_fields formed blank,
      show ("dir=\"rtl\"" : Text) = (Field.setting " " "dir" "rtl").core from by decide,
      putAttribute_joined dir formed direction,
      show ("lang=\"ar\"" : Text) = (Field.setting " " "lang" "ar").core from by decide,
      putAttribute_joined lang directed language, markedFields, text_spaced (assign_ne_nil _ _ _),
      show Text.ofString "<html " = Text.ofString "<html" ++ Text.ofString " " from by
        decide]
    simp only [List.append_assoc]
    rfl
  rw [markRoot_append first found, behind, written]
  simp only [List.append_assoc, List.singleton_append]

/-- A root tag with a language that has a bare value. -/
def foreignRoot : List Field :=
  [⟨" ", "class", some ⟨⟨[], []⟩, .quoted (CodePoint.ofChar '"') "no-js"⟩⟩,
    ⟨"\n ", "LANG", some ⟨⟨" ", " "⟩, .bare "en"⟩⟩]

/-- The language is set in place, the direction behind it. -/
theorem markRoot_fields_foreign :
    markRoot "<!doctype html>\n<HTML class=\"no-js\"\n LANG = en><body>" =
      "<!doctype html>\n<html class=\"no-js\"\n lang=\"ar\" dir=\"rtl\"><body>" := by
  have content : Text.ofString "<!doctype html>\n<HTML class=\"no-js\"\n LANG = en><body>" =
      Text.ofString "<!doctype html>\n" ++ (Text.ofString "<HTML" ++
        (foreignRoot.flatMap Field.text ++ []) ++
          CodePoint.ofChar '>' :: Text.ofString "<body>") := by
    decide
  rw [content, (markRoot_fields (by decide) (by decide) rfl (by decide)
    (by decide) (by decide) (by decide)).1]
  decide

/-! ## Fields without a value -/

theorem endsFields_end (fs : List Field) (rest : Text) :
    EndsFields fs (CodePoint.ofChar '>' :: rest) :=
  ⟨fun _ _ => ⟨fun _ => stops_cons (by decide) _, stops_cons (by decide) _,
    stops_cons (by decide) _⟩, stops_cons (by decide) _⟩

/-- A root tag with a direction that has no value. -/
def undirectedRoot : List Field := [⟨" ", "dir", none⟩]

/-- The direction without a value stays, and another one is put behind it. -/
theorem markRoot_undirected :
    (∀ f ∈ undirectedRoot, f.WellFormed) ∧
    ∀ fields : List Field, (∀ f ∈ fields, f.WellFormed) →
      markRoot (Text.ofString "<html" ++ (undirectedRoot.flatMap Field.text ++ ">")) =
        Text.ofString "<html" ++ (fields.flatMap Field.text ++ ">") →
      fields.map Field.name = (["dir", "dir", "lang"] : List Text) := by
  refine ⟨by decide, fun fields formed same => ?_⟩
  have marked : markRoot (Text.ofString "<html" ++ (undirectedRoot.flatMap Field.text ++ ">")) =
      Text.ofString "<html" ++ ((markedFields undirectedRoot).flatMap Field.text ++ ">") := by
    decide
  rw [marked, List.append_cancel_left_eq] at same
  obtain ⟨rfl, -⟩ := fields_eq_of_text same (by decide) formed (endsFields_end _ _)
    (endsFields_end _ _)
  decide

end Arabize.Markup
