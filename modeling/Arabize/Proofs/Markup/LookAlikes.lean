import Arabize.Proofs.Markup.RawBody
import Arabize.Proofs.Markup.Spans
import Arabize.Proofs.Markup.Texts

/-! # Tags that look like a script or a style

The tags of script and style bodies are sought by how they begin: an opening tag may go on with
anything.  So a component whose name goes on where `script` or `style` ends is taken for one, and
as no closing tag of that name is found, every text behind it counts as code.  In a document
without scripts and styles the texts that are passed over are those, and no others
(`editSpans_unnamed`).
-/

namespace Arabize.Markup

open Text (Occurs beginsWith exists_of_beginsWith_append fitting strip)

variable {σ : Type}

/-! ## The names of tags -/

def isTagNameChar (c : CodePoint) : Bool :=
  c.isWordChar || c == CodePoint.ofChar '-' || c == CodePoint.ofChar '.' ||
    c == CodePoint.ofChar ':'

/-- The name of a tag, given what stands behind its `<`. -/
def tagName : Text → Text
  | [] => []
  | c :: t => (if c = '/' then t else c :: t).takeWhile isTagNameChar

/-- Whether some tag of a document has this name, letter case aside. -/
def HasTag (name content : Text) : Prop :=
  ∃ i, i < content.length ∧ content[i]? = some (CodePoint.ofChar '<') ∧
    beginsWith (tagName (content.drop (i + 1))) name = true ∧
    (tagName (content.drop (i + 1))).length = name.length

instance (name content : Text) : Decidable (HasTag name content) :=
  inferInstanceAs (Decidable (∃ i, i < content.length ∧ _))

theorem hasTag_of_drop {name content rest : Text} {i : Nat}
    (place : content.drop i = CodePoint.ofChar '<' :: rest)
    (spelled : beginsWith (tagName rest) name = true)
    (same : (tagName rest).length = name.length) : HasTag name content := by
  have here : content[i]? = some (CodePoint.ofChar '<') := by
    rw [← List.head?_drop, place, List.head?_cons]
  have behind : content.drop (i + 1) = rest := by rw [← List.tail_drop, place, List.tail_cons]
  refine ⟨i, (List.getElem?_eq_some_iff.1 here).1, here, ?_⟩
  rw [behind]
  exact ⟨spelled, same⟩

/-- The names that are sought are made of small letters. -/
theorem isLowerLetter_of_mem_codeElements {name : Text} (member : name ∈ codeElements) :
    name ≠ [] ∧ ∀ d ∈ name, d.isLowerLetter = true := by
  have all : ∀ name ∈ codeElements,
      name ≠ [] ∧ (name.all fun d => d.isLowerLetter) = true := by
    decide
  exact (all name member).imp_right List.all_eq_true.1

/-- A spelling of small letters is made of code points of a name. -/
theorem isTagNameChar_of_beginsWith {name spelling : Text}
    (letters : ∀ d ∈ name, d.isLowerLetter = true) (same : spelling.length = name.length)
    (spelled : beginsWith spelling name = true) : ∀ c ∈ spelling, isTagNameChar c = true := by
  induction spelling generalizing name with
  | nil => exact nofun
  | cons c spelling ih =>
    obtain ⟨d, name, rfl⟩ := List.exists_cons_of_length_pos (l := name) (by
      rw [← same]
      exact Nat.succ_pos _)
    obtain ⟨small, lettersBehind⟩ := List.forall_mem_cons.1 letters
    rw [beginsWith, Bool.and_eq_true] at spelled
    refine List.forall_mem_cons.2 ⟨?_, ih lettersBehind (Nat.succ.inj same) spelled.2⟩
    simp [isTagNameChar, CodePoint.isWordChar, CodePoint.isNameChar_of_spells small spelled.1]

/-- What stands behind the `<` of an opening tag that is found. -/
theorem exists_of_occurs_opening {name content : Text} {offset i : Nat}
    (letters : name ≠ [] ∧ ∀ d ∈ name, d.isLowerLetter = true)
    (occurs : Occurs (CodePoint.ofChar '<' :: name) content offset i) :
    ∃ spelling rest, content.drop i = CodePoint.ofChar '<' :: (spelling ++ rest) ∧
      spelling.length = name.length ∧ beginsWith spelling name = true ∧
      tagName (spelling ++ rest) = spelling ++ rest.takeWhile isTagNameChar := by
  have whole : beginsWith (content.drop i) ([CodePoint.ofChar '<'] ++ name) = true := occurs.1
  obtain ⟨mark, behind, place, single, marked, found⟩ := exists_of_beginsWith_append whole
  obtain ⟨c, rfl⟩ := List.length_eq_one_iff.1 single
  rw [← List.append_nil name] at found
  obtain ⟨spelling, rest, rfl, same, spelled, -⟩ := exists_of_beginsWith_append found
  have isMark : c = CodePoint.ofChar '<' := by
    rw [← CodePoint.spells_iff_eq (by decide)]
    simpa [beginsWith] using marked
  have nameChars := isTagNameChar_of_beginsWith letters.2 same spelled
  refine ⟨spelling, rest, by rw [place, isMark]; rfl, same, spelled, ?_⟩
  -- A letter stands first, so the tag is no closing one.
  have filled : spelling ≠ [] := by
    rintro rfl
    exact letters.1 (List.length_eq_zero_iff.1 same.symm)
  obtain ⟨d, spelling, rfl⟩ := List.exists_cons_of_ne_nil filled
  have notSlash : d ≠ CodePoint.ofChar '/' := by
    rintro rfl
    have slash : isTagNameChar (CodePoint.ofChar '/') = false := by decide
    rw [nameChars _ List.mem_cons_self] at slash
    cases slash
  rw [List.cons_append, tagName, if_neg notSlash, ← List.cons_append,
    List.takeWhile_append_of_pos nameChars]

section Unnamed

variable {name content : Text} {offset i : Nat}

/-- In a document without a tag of this name an opening tag that is found has a longer name. -/
theorem length_lt_of_occurs_opening (letters : name ≠ [] ∧ ∀ d ∈ name, d.isLowerLetter = true)
    (unnamed : ¬ HasTag name content)
    (occurs : Occurs (CodePoint.ofChar '<' :: name) content offset i) :
    beginsWith (tagName (content.drop (i + 1))) name = true ∧
      name.length < (tagName (content.drop (i + 1))).length := by
  obtain ⟨spelling, rest, place, same, spelled, tag⟩ := exists_of_occurs_opening letters occurs
  have behind : content.drop (i + 1) = spelling ++ rest := by
    rw [← List.tail_drop, place, List.tail_cons]
  have begins : beginsWith (tagName (spelling ++ rest)) name = true := by
    rw [tag]
    exact Text.beginsWith_append_right spelled _
  have other : (tagName (spelling ++ rest)).length ≠ name.length := fun exactly =>
    unnamed (hasTag_of_drop place begins exactly)
  rw [behind]
  refine ⟨begins, Nat.lt_of_le_of_ne ?_ (Ne.symm other)⟩
  rw [tag, List.length_append, same]
  exact Nat.le_add_right _ _

/-- In a document without a tag of this name no closing tag is found. -/
theorem not_occurs_closing (letters : name ≠ [] ∧ ∀ d ∈ name, d.isLowerLetter = true)
    (unnamed : ¬ HasTag name content) : ¬ Occurs ("</" ++ name ++ ">") content offset i := by
  intro occurs
  have found := occurs.1
  rw [List.append_assoc] at found
  obtain ⟨marks, behind, place, pair, marked, found⟩ := exists_of_beginsWith_append found
  obtain ⟨spelling, rest, rfl, same, spelled, ended⟩ := exists_of_beginsWith_append found
  obtain ⟨c, d, rfl⟩ : ∃ c d, marks = [c, d] := by
    match marks, pair with
    | [c, d], _ => exact ⟨c, d, rfl⟩
  -- What is no letter is spelled by itself only.
  have slash : c = CodePoint.ofChar '<' ∧ d = CodePoint.ofChar '/' := by
    rw [← CodePoint.spells_iff_eq (d := CodePoint.ofChar '<') (by decide),
      ← CodePoint.spells_iff_eq (d := CodePoint.ofChar '/') (by decide)]
    simpa [beginsWith, Text.ofString] using marked
  obtain ⟨rfl, rfl⟩ := slash
  -- The `>` ends the name of the tag, so it is no longer than what was sought.
  have exactly : tagName (CodePoint.ofChar '/' :: (spelling ++ rest)) = spelling := by
    obtain ⟨e, rest, rfl⟩ : ∃ e more, rest = e :: more := by
      cases rest with
      | nil => cases ended
      | cons e rest => exact ⟨e, rest, rfl⟩
    have isEnd : e = CodePoint.ofChar '>' := by
      rw [← CodePoint.spells_iff_eq (by decide)]
      simpa [beginsWith, Text.ofString] using ended
    rw [tagName, if_pos rfl, List.takeWhile_append_of_pos
      (isTagNameChar_of_beginsWith letters.2 same spelled), isEnd,
      List.takeWhile_cons_of_neg (by decide), List.append_nil]
  have slashed : content.drop i =
      CodePoint.ofChar '<' :: CodePoint.ofChar '/' :: (spelling ++ rest) := place
  refine unnamed (hasTag_of_drop slashed ?_ ?_)
  · rw [exactly, spelled]
  · rw [exactly, same]

end Unnamed

/-! ## What follows them -/

/-- Some tag that fits into an offset begins as that of a script or a style. -/
def FollowsLookAlike (content : Text) (offset : Nat) : Prop :=
  ∃ name ∈ codeElements, ∃ i, i < offset ∧
    Occurs (CodePoint.ofChar '<' :: name) content (fitting offset content) i

instance (content : Text) (offset : Nat) : Decidable (FollowsLookAlike content offset) :=
  inferInstanceAs (Decidable (∃ name ∈ codeElements, ∃ i, i < offset ∧ _))

theorem insideBody_iff_followsLookAlike {content : Text}
    (unnamed : ∀ name ∈ codeElements, ¬ HasTag name content) (offset : Nat) :
    InsideBody content (fitting offset content) ↔ FollowsLookAlike content offset := by
  refine exists_congr fun name => and_congr_right fun member => ?_
  constructor
  · rintro ⟨i, last, _⟩
    have before : i < i + (CodePoint.ofChar '<' :: name).length :=
      Nat.lt_add_of_pos_right (Nat.succ_pos _)
    exact ⟨i, before.trans_le (last.1.2.trans (Text.fitting_le offset content)), last.1⟩
  · rintro ⟨i, _, occurs⟩
    obtain ⟨k, last⟩ := occurs.exists_last
    exact ⟨k, last, fun j closing => absurd closing.1
      (not_occurs_closing (isLowerLetter_of_mem_codeElements member) (unnamed name member))⟩

/-! ## The texts that are visited -/

/-- The spans of a document, each with the place where it starts. -/
def spans (rule : SpanRule) (content : Text) : List (Nat × Text) :=
  (cut rule content).filterMap fun piece =>
    match piece with
    | .other _ => none
    | .span start t => some (start, t)

/-- The cores of the spans that are not blank. -/
def cores (spans : List (Nat × Text)) : List Text :=
  (spans.filter fun span => strip span.2 ≠ []).map fun span => strip span.2

theorem mem_spans_iff {rule : SpanRule} (intact : rule.breaks (CodePoint.ofChar '>') = false)
    (content : Text) (start : Nat) (run : Text) :
    (start, run) ∈ spans rule content ↔ IsSpan rule content start run := by
  rw [← mem_cut_iff intact, spans, List.mem_filterMap]
  constructor
  · rintro ⟨_ | ⟨place, t⟩, member, found⟩
    · cases found
    · cases found
      exact member
  · exact fun member => ⟨_, member, rfl⟩

/-- Nothing is lost with the spans that are filtered out exactly if they are blank. -/
theorem cores_filter_eq_iff (spans : List (Nat × Text)) (keeps : Nat × Text → Bool) :
    cores (spans.filter keeps) = cores spans ↔
      ∀ span ∈ spans, strip span.2 ≠ [] → keeps span = true := by
  have swapped : (spans.filter keeps).filter (fun span => strip span.2 ≠ []) =
      (spans.filter fun span => strip span.2 ≠ []).filter keeps := by
    rw [List.filter_filter, List.filter_filter]
    simp only [Bool.and_comm]
  have kept : (∀ span ∈ spans, strip span.2 ≠ [] → keeps span = true) ↔
      ∀ span ∈ spans.filter fun span => strip span.2 ≠ [], keeps span = true := by
    simp only [List.mem_filter, decide_eq_true_eq, and_imp]
  rw [kept, cores, cores, swapped]
  constructor
  -- Two spans may have one core, but a span that is lost makes the list shorter.
  · intro same
    rw [← List.length_filter_eq_length_iff]
    simpa only [List.length_map] using congrArg List.length same
  · exact fun all => by rw [List.filter_eq_self.2 all]

theorem spanTexts_eq_cores (rule : SpanRule) (content : Text) :
    spanTexts rule content = cores ((spans rule content).filter fun span =>
      !insideRawBody content.lower span.1) := by
  rw [spanTexts, spans]
  induction cut rule content with
  | nil => rfl
  | cons piece pieces ih =>
    cases piece with
    | other t => exact ih
    | span start t =>
      rw [List.filterMap_cons, List.filterMap_cons, ih]
      by_cases inside : insideRawBody content.lower start = true
      · simp [pieceText?, cores, inside]
      · by_cases blank : strip t = [] <;> simp [pieceText?, cores, inside, blank]

/-- In a document in which no tag is a script or a style the visitor gets the cores of the spans
    that are not blank and follow no tag that looks like one, and so of all of them exactly if none
    follows one.  Every tag that looks like one has a name that goes on where `script` or `style`
    ends. -/
theorem editSpans_unnamed {rule : SpanRule} (known : rule = markupSpans ∨ rule = elementSpans)
    {content : Text} (unnamed : ∀ name ∈ codeElements, ¬ HasTag name content)
    (visit : Text → StateM σ Text) (s : σ) :
    let spoken := (spans rule content).filter fun span => ¬ FollowsLookAlike content span.1
    (∀ start run, (start, run) ∈ spans rule content ↔ IsSpan rule content start run) ∧
    editSpans rule (noting visit) content (s, []) =
      ((editSpans rule visit content s).1, (editSpans rule visit content s).2, cores spoken) ∧
    (cores spoken = cores (spans rule content) ↔
      ∀ span ∈ spans rule content, strip span.2 ≠ [] → ¬ FollowsLookAlike content span.1) ∧
    ∀ name ∈ codeElements, ∀ i, Occurs (CodePoint.ofChar '<' :: name) content content.length i →
      beginsWith (tagName (content.drop (i + 1))) name = true ∧
        name.length < (tagName (content.drop (i + 1))).length := by
  intro spoken
  have intact : rule.breaks (CodePoint.ofChar '>') = false := by
    rcases known with rfl | rfl <;> decide
  have texts : spanTexts rule content = cores spoken := by
    rw [spanTexts_eq_cores]
    congr 2
    funext span
    have follows : insideRawBody content.lower span.1 =
        decide (FollowsLookAlike content span.1) := by
      rw [Bool.eq_iff_iff, insideRawBody_lower_iff, insideBody_iff_followsLookAlike unnamed,
        decide_eq_true_iff]
    rw [follows, decide_not]
  refine ⟨mem_spans_iff intact content, ?_, ?_, fun name member i occurs => ?_⟩
  · rw [← texts]
    exact editSpans_notes rule visit content s []
  · rw [cores_filter_eq_iff]
    simp only [decide_eq_true_eq]
  · exact length_lt_of_occurs_opening (isLowerLetter_of_mem_codeElements member)
      (unnamed name member) occurs

/-- A component whose name begins like that of a style. -/
def styledCard : Text := "<StyledCard>Hello</StyledCard>"

/-- The text of the component is a span that is not visited. -/
theorem editSpans_styledCard : (∀ name ∈ codeElements, ¬ HasTag name styledCard) ∧
    (spans elementSpans styledCard = [(12, Text.ofString "Hello")]) ∧
    editSpans elementSpans (noting pure) styledCard ((), []) = (styledCard, (), []) := by
  have unnamed : ∀ name ∈ codeElements, ¬ HasTag name styledCard := by decide
  have found : spans elementSpans styledCard = [(12, Text.ofString "Hello")] := by decide
  have follows : FollowsLookAlike styledCard 12 := by decide
  obtain ⟨-, notes, -⟩ := editSpans_unnamed (.inr rfl) unnamed (pure : Text → StateM Unit Text) ()
  refine ⟨unnamed, found, ?_⟩
  rw [notes, found, List.filter_cons_of_neg (by simp [follows])]
  exact Prod.ext rfl rfl

end Arabize.Markup
