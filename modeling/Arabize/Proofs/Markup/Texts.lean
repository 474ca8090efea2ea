import Arabize.Proofs.Markup.EditSpans
import Arabize.Proofs.Notes

/-! # The texts of a page

A pass over the spans of a document visits their cores, and a pass over an attribute the values
of it.  Which texts these are depends on the document that the pass is given, and on nothing
else; what the visitor answers decides which document the next pass is given (`pageTexts`).
-/

namespace Arabize.Markup

open Text (strip)

variable {σ : Type} {good : σ → Prop} {visit : Text → StateM σ Text} {spell : Text → Text}

/-! ## Spans -/

/-- The text of a piece that is visited, if there is one. -/
def pieceText? (lowered : Text) : Piece → Option Text
  | .other _ => none
  | .span start t =>
    if insideRawBody lowered start = true ∨ strip t = [] then none else some (strip t)

/-- The texts between the tags of a document, blanks around them taken off. -/
def spanTexts (rule : SpanRule) (content : Text) : List Text :=
  (cut rule content).filterMap (pieceText? content.lower)

theorem visitCore_notes (visit : Text → StateM σ Text) {t : Text} (core : strip t ≠ []) (s : σ) :
    Notes (visitCore (noting visit) t) (visitCore visit t) s [strip t] := by
  intro seen
  rw [visitCore_run, visitCore_run, if_neg core, if_neg core]
  rfl

theorem editPiece_notes (visit : Text → StateM σ Text) (lowered : Text) (piece : Piece) (s : σ) :
    Notes (editPiece (noting visit) lowered piece) (editPiece visit lowered piece) s
      (pieceText? lowered piece).toList := by
  cases piece with
  | other t => exact .pure _ _
  | span start t =>
    simp only [editPiece, pieceText?]
    by_cases inside : insideRawBody lowered start = true
    · simp only [inside, if_true, true_or]
      exact .pure _ _
    · by_cases blank : strip t = []
      · simp only [inside, blank, or_true, if_true, visitCore]
        exact .pure _ _
      · rw [if_neg inside, if_neg inside, if_neg (not_or.2 ⟨inside, blank⟩)]
        exact visitCore_notes visit blank s

theorem editPieces_notes (visit : Text → StateM σ Text) (lowered : Text) (pieces : List Piece)
    (s : σ) :
    Notes (editPieces (noting visit) lowered pieces) (editPieces visit lowered pieces) s
      (pieces.filterMap (pieceText? lowered)) := by
  induction pieces generalizing s with
  | nil => exact .pure _ _
  | cons piece rest ih =>
    have here : Notes (editPieces (noting visit) lowered (piece :: rest))
        (editPieces visit lowered (piece :: rest)) s _ :=
      (editPiece_notes visit lowered piece s).bind fun _ _ _ => (ih _).map _
    rw [List.filterMap_cons]
    cases found : pieceText? lowered piece <;> rw [found] at here <;> exact here

/-- The texts between the tags of a document are those that are visited. -/
theorem editSpans_notes (rule : SpanRule) (visit : Text → StateM σ Text) (content : Text) (s : σ) :
    Notes (editSpans rule (noting visit) content) (editSpans rule visit content) s
      (spanTexts rule content) :=
  editPieces_notes visit _ _ s

/-! ## Attributes -/

def AttributePiece.text : AttributePiece → Text
  | .other c => [c]
  | .attribute _ _ spelling => spelling

def valueText? (content : Text) : AttributePiece → Option Text
  | .other _ => none
  | .attribute start a _ =>
    if insideRawBody content.lower (tagStart content start) = true then none else some a.value

/-- The quoted values of the attributes of one name that are visited. -/
def valueTexts (content name : Text) : List Text :=
  (cutAttributes name 0 0 none content).filterMap (valueText? content)

/-- What becomes of a piece when values are spelled anew. -/
def respellValue (spell : Text → Text) (content : Text) : AttributePiece → Text
  | .other c => [c]
  | .attribute start a spelling =>
    if insideRawBody content.lower (tagStart content start) = true ∨ spell a.value = a.value then
      spelling
    else a.name ++ a.sign ++ quoteValue (spell a.value)

/-- A document with the values of the attributes of one name spelled anew. -/
def respellAttribute (spell : Text → Text) (name content : Text) : Text :=
  (cutAttributes name 0 0 none content).flatMap (respellValue spell content)

/-- The values that are visited of one attribute name after the other, each in the document that
    the names before it have left. -/
def attributeTexts (spell : Text → Text) : List Text → Text → List Text
  | [], _ => []
  | name :: names, content =>
    valueTexts content name ++ attributeTexts spell names (respellAttribute spell name content)

theorem editAttributePiece_notes (visit : Text → StateM σ Text) (content : Text)
    (piece : AttributePiece) (s : σ) :
    Notes (editAttributePiece (noting visit) content content.lower piece)
      (editAttributePiece visit content content.lower piece) s
      (valueText? content piece).toList := by
  cases piece with
  | other c => exact .pure _ _
  | «attribute» start a spelling =>
    simp only [editAttributePiece, valueText?]
    split
    · exact .pure _ _
    · refine (Notes.visit visit a.value s).bind fun answer t _ => ?_
      split <;> exact .pure _ _

theorem editAttributePiece_answers (answers : Phrase.Answers good visit spell) (content : Text)
    (piece : AttributePiece) {s : σ} (start : good s) :
    (editAttributePiece visit content content.lower piece s).1 = respellValue spell content piece ∧
      good (editAttributePiece visit content content.lower piece s).2 := by
  cases piece with
  | other c => exact ⟨rfl, start⟩
  | «attribute» place a spelling =>
    simp only [editAttributePiece, respellValue]
    by_cases inside : insideRawBody content.lower (tagStart content place) = true
    · simp only [inside, if_true, true_or]
      exact ⟨rfl, start⟩
    · obtain ⟨answered, after⟩ := answers a.value s start
      simp only [inside, Bool.false_eq_true, if_false, false_or]
      change ((if (visit a.value s).1 = a.value then (pure spelling : StateM σ Text)
          else pure (a.name ++ a.sign ++ quoteValue (visit a.value s).1))
            (visit a.value s).2).1 = _ ∧
        good ((if (visit a.value s).1 = a.value then (pure spelling : StateM σ Text)
          else pure (a.name ++ a.sign ++ quoteValue (visit a.value s).1)) (visit a.value s).2).2
      rw [answered]
      split <;> exact ⟨rfl, after⟩

theorem editAttributePieces_notes (visit : Text → StateM σ Text) (content : Text)
    (pieces : List AttributePiece) (s : σ) :
    Notes (editAttributePieces (noting visit) content content.lower pieces)
      (editAttributePieces visit content content.lower pieces) s
      (pieces.filterMap (valueText? content)) := by
  induction pieces generalizing s with
  | nil => exact .pure _ _
  | cons piece rest ih =>
    have here : Notes (editAttributePieces (noting visit) content content.lower (piece :: rest))
        (editAttributePieces visit content content.lower (piece :: rest)) s _ :=
      (editAttributePiece_notes visit content piece s).bind fun _ _ _ => (ih _).map _
    rw [List.filterMap_cons]
    cases found : valueText? content piece <;> rw [found] at here <;> exact here

theorem editAttributePieces_answers (answers : Phrase.Answers good visit spell) (content : Text)
    (pieces : List AttributePiece) {s : σ} (start : good s) :
    (editAttributePieces visit content content.lower pieces s).1 =
        pieces.flatMap (respellValue spell content) ∧
      good (editAttributePieces visit content content.lower pieces s).2 := by
  induction pieces generalizing s with
  | nil => exact ⟨rfl, start⟩
  | cons piece rest ih =>
    obtain ⟨here, between⟩ := editAttributePiece_answers answers content piece start
    obtain ⟨behind, after⟩ := ih between
    rw [List.flatMap_cons, ← here, ← behind]
    exact ⟨rfl, after⟩

theorem editEach_notes (answers : Phrase.Answers good visit spell) (names : List Text)
    (content : Text) {s : σ} (start : good s) :
    Notes (editEach (noting visit) names content) (editEach visit names content) s
      (attributeTexts spell names content) := by
  induction names generalizing content s with
  | nil => exact .pure _ _
  | cons name names ih =>
    refine (editAttributePieces_notes visit content _ s).bind fun edited t ran => ?_
    -- The next name is sought in what this one has left.
    obtain ⟨left, after⟩ := editAttributePieces_answers answers content
      (cutAttributes name 0 0 none content) start
    rw [ran] at left after
    rw [show respellAttribute spell name content = edited from left.symm]
    exact ih edited after

/-! ## Attributes that are left alone -/

theorem cutAttributes_text (name : Text) (n skip : Nat) (before : Option CodePoint) (t : Text) :
    (cutAttributes name n skip before t).flatMap AttributePiece.text = t.drop skip := by
  fun_induction cutAttributes name n skip before t with
  | case1 => exact List.drop_nil.symm
  | case2 n skip before c t ih => exact ih
  | case3 n before c t found a isFound ih =>
    have wide : a.length = a.length - 1 + 1 := by
      rw [Attribute.length]
      omega
    rw [List.flatMap_cons, ih, AttributePiece.text, wide, Nat.add_sub_cancel, List.take_succ_cons,
      List.cons_append, List.take_append_drop, List.drop_zero]
  | case4 n before c t found isNone ih =>
    rw [List.flatMap_cons, ih]
    rfl

theorem respellAttribute_of_kept {name content : Text}
    (kept : ∀ t ∈ valueTexts content name, spell t = t) :
    respellAttribute spell name content = content := by
  have each : ∀ piece ∈ cutAttributes name 0 0 none content,
      respellValue spell content piece = piece.text := by
    intro piece member
    cases piece with
    | other c => rfl
    | «attribute» start a spelling =>
      refine if_pos (Decidable.or_iff_not_imp_left.2 fun outside => kept _ ?_)
      exact List.mem_filterMap.2 ⟨_, member, if_neg outside⟩
  rw [respellAttribute, List.flatMap_def, List.map_congr_left each, ← List.flatMap_def,
    cutAttributes_text, List.drop_zero]

/-- A visitor that keeps the values of all attributes sees them as they stand. -/
theorem attributeTexts_of_kept {names : List Text} {content : Text}
    (kept : ∀ t ∈ names.flatMap (valueTexts content), spell t = t) :
    attributeTexts spell names content = names.flatMap (valueTexts content) := by
  induction names with
  | nil => rfl
  | cons name names ih =>
    rw [List.flatMap_cons, List.forall_mem_append] at kept
    rw [attributeTexts, respellAttribute_of_kept kept.1, ih kept.2, List.flatMap_cons]

/-! ## Pages -/

/-- The texts that are visited in a page: those between its tags, and then the values in the page
    that these have left. -/
def pageTexts (spell : Text → Text) (content : Text) : List Text :=
  spanTexts markupSpans content ++ attributeTexts spell readableAttributes
    ((cut markupSpans content).flatMap (respell spell content.lower))

/-- The texts of a page as it stands. -/
def textsIn (content : Text) : List Text :=
  spanTexts markupSpans content ++ readableAttributes.flatMap (valueTexts content)

theorem respell_of_kept {rule : SpanRule} {content : Text}
    (kept : ∀ t ∈ spanTexts rule content, spell t = t) :
    (cut rule content).flatMap (respell spell content.lower) = content := by
  have each : ∀ piece ∈ cut rule content, respell spell content.lower piece = piece.text := by
    intro piece member
    cases piece with
    | other t => rfl
    | span start t =>
      refine if_pos (or_assoc.1 (Decidable.or_iff_not_imp_left.2 fun visited => kept _ ?_))
      exact List.mem_filterMap.2 ⟨_, member, if_neg visited⟩
  rw [List.flatMap_def, List.map_congr_left each, ← List.flatMap_def, cut_text]

/-- A visitor that keeps all texts of a page sees just them. -/
theorem pageTexts_of_kept {content : Text} (kept : ∀ t ∈ textsIn content, spell t = t) :
    pageTexts spell content = textsIn content := by
  rw [textsIn, List.forall_mem_append] at kept
  rw [pageTexts, respell_of_kept kept.1, attributeTexts_of_kept kept.2, textsIn]

theorem editPage_notes (answers : Phrase.Answers good visit spell) (marked : Bool) (content : Text)
    {s : σ} (start : good s) :
    Notes (editPage (noting visit) marked content) (editPage visit marked content) s
      (pageTexts spell (if marked then markRoot content else content)) := by
  refine (editSpans_notes markupSpans visit _ s).bind fun edited t ran => ?_
  obtain ⟨left, after⟩ := editPieces_answers answers _ _ start
  rw [show editPieces visit _ _ s = (edited, t) from ran] at left after
  rw [← left]
  exact editEach_notes answers readableAttributes edited after

end Arabize.Markup
