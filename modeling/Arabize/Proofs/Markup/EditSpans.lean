import Arabize.Proofs.Markup.Spans
import Arabize.Proofs.Patch
import Arabize.Proofs.Phrase.Memory
import Arabize.Proofs.Text.Words

/-! # What an edit of the spans changes

An edit replaces the cores of some spans and keeps everything else.  `corePatches` are these
cores, and the edited document is the document patched by them (`editSpans_eq_weave`).

It is the document itself only if there is nothing to patch (`weave_corePatches_eq_iff`): no
new text, whatever it holds, makes up for another one.
-/

namespace Arabize.Markup

open Text (strip leadingBlanks trailingBlanks)

variable {rule : SpanRule} {spell : Text → Text}

/-- What becomes of a piece when the cores of spans are spelled anew. -/
def respell (spell : Text → Text) (lowered : Text) : Piece → Text
  | .other t => t
  | .span start t =>
    if insideRawBody lowered start = true ∨ strip t = [] ∨ spell (strip t) = strip t then t
    else leadingBlanks t ++ spell (strip t) ++ trailingBlanks t

/-- The core of a piece as a patch of the document, if it changes. -/
def corePatch? (spell : Text → Text) (lowered : Text) : Piece → Option (Patch CodePoint)
  | .other _ => none
  | .span start t =>
    if insideRawBody lowered start = true ∨ strip t = [] ∨ spell (strip t) = strip t then none
    else some ⟨start + (leadingBlanks t).length,
      start + (leadingBlanks t).length + (strip t).length, spell (strip t)⟩

/-- The cores of a document that change. -/
def corePatches (rule : SpanRule) (spell : Text → Text) (content : Text) :
    List (Patch CodePoint) :=
  (cut rule content).filterMap (corePatch? spell content.lower)

theorem mem_corePatches_iff (intact : rule.breaks (CodePoint.ofChar '>') = false)
    (content : Text) (p : Patch CodePoint) :
    p ∈ corePatches rule spell content ↔ ∃ start run, IsSpan rule content start run ∧
      insideRawBody content.lower start = false ∧ strip run ≠ [] ∧
      spell (strip run) ≠ strip run ∧
      p = ⟨start + (leadingBlanks run).length,
        start + (leadingBlanks run).length + (strip run).length, spell (strip run)⟩ := by
  rw [corePatches, List.mem_filterMap]
  constructor
  · rintro ⟨piece, member, patched⟩
    cases piece with
    | other t => cases patched
    | span start run =>
      simp only [corePatch?] at patched
      split at patched
      next => cases patched
      next changes =>
        rw [not_or, not_or, Bool.not_eq_true] at changes
        cases patched
        exact ⟨start, run, (mem_cut_iff intact _ _ _).1 member, changes.1, changes.2.1,
          changes.2.2, rfl⟩
  · rintro ⟨start, run, isSpan, outside, core, changes, rfl⟩
    refine ⟨.span start run, (mem_cut_iff intact _ _ _).2 isSpan, ?_⟩
    simp [corePatch?, outside, core, changes]

/-! ## The edited document -/

variable {σ : Type} {good : σ → Prop} {visit : Text → StateM σ Text}

theorem visitCore_run (visit : Text → StateM σ Text) (t : Text) (s : σ) :
    visitCore visit t s =
      if strip t = [] then (t, s)
      else (if (visit (strip t) s).1 = strip t then t
        else leadingBlanks t ++ (visit (strip t) s).1 ++ trailingBlanks t,
        (visit (strip t) s).2) := by
  unfold visitCore
  by_cases blank : strip t = []
  · simp only [blank, if_true]
    rfl
  · simp only [blank, if_false]
    change (if (visit (strip t) s).1 = strip t then (pure t : StateM σ Text)
      else pure (leadingBlanks t ++ (visit (strip t) s).1 ++ trailingBlanks t))
        (visit (strip t) s).2 = _
    split <;> rfl

theorem editPiece_answers (answers : Phrase.Answers good visit spell) (lowered : Text)
    (piece : Piece) {s : σ} (start : good s) :
    (editPiece visit lowered piece s).1 = respell spell lowered piece ∧
      good (editPiece visit lowered piece s).2 := by
  cases piece with
  | other t => exact ⟨rfl, start⟩
  | span place t =>
    simp only [editPiece, respell]
    by_cases inside : insideRawBody lowered place = true
    · simp only [inside, if_true, true_or]
      exact ⟨rfl, start⟩
    · obtain ⟨answered, after⟩ := answers (strip t) s start
      rw [if_neg inside, visitCore_run, answered]
      by_cases blank : strip t = []
      · simp only [blank, if_true, true_or, or_true]
        exact ⟨trivial, start⟩
      · simp only [blank, inside, if_false, Bool.false_eq_true, false_or]
        exact ⟨trivial, after⟩

theorem editPieces_answers (answers : Phrase.Answers good visit spell) (lowered : Text)
    (pieces : List Piece) {s : σ} (start : good s) :
    (editPieces visit lowered pieces s).1 = pieces.flatMap (respell spell lowered) ∧
      good (editPieces visit lowered pieces s).2 := by
  induction pieces generalizing s with
  | nil => exact ⟨rfl, start⟩
  | cons piece rest ih =>
    obtain ⟨here, between⟩ := editPiece_answers answers lowered piece start
    obtain ⟨behind, after⟩ := ih between
    rw [List.flatMap_cons, ← here, ← behind]
    exact ⟨rfl, after⟩

/-! ## Patches -/

theorem take_take_add {source : Text} {m n k : Nat} (ordered : m ≤ n) :
    (source.drop m).take (n + k - m) =
      (source.drop m).take (n - m) ++ (source.drop n).take k := by
  rw [show n + k - m = n - m + k by omega, List.take_add, List.drop_drop,
    show m + (n - m) = n by omega]

theorem weave_core {source leading core trailing more new image : Text}
    {patches : List (Patch CodePoint)} {m n : Nat} (ordered : m ≤ n)
    (rest : source.drop n = leading ++ core ++ trailing ++ more)
    (behind : weave source (n + leading.length + core.length) patches =
      (source.drop (n + leading.length + core.length)).take trailing.length ++ image) :
    weave source m (⟨n + leading.length, n + leading.length + core.length, new⟩ :: patches) =
      (source.drop m).take (n - m) ++ (leading ++ new ++ trailing) ++ image := by
  have front : (source.drop n).take leading.length = leading := by
    rw [rest, List.append_assoc, List.append_assoc, List.take_left]
  have back : (source.drop (n + leading.length + core.length)).take trailing.length =
      trailing := by
    rw [Nat.add_assoc, ← List.drop_drop, rest, ← List.length_append, List.append_assoc,
      List.drop_left, List.take_left]
  rw [weave, behind, back, take_take_add ordered, front]
  simp only [List.append_assoc]

/-- Pieces that make up the rest of a document are woven from their patches. -/
theorem weave_pieces {source lowered : Text} {pieces : List Piece} {m n : Nat} (ordered : m ≤ n)
    (rest : source.drop n = pieces.flatMap Piece.text) (placed : Placed n pieces) :
    weave source m (pieces.filterMap (corePatch? spell lowered)) =
      (source.drop m).take (n - m) ++ pieces.flatMap (respell spell lowered) := by
  induction pieces generalizing m n with
  | nil =>
    -- Without pieces nothing is left behind `n`.
    have finished : (source.drop m).drop (n - m) = [] := by
      rw [List.drop_drop, show m + (n - m) = n by omega, rest]
      rfl
    have whole := List.take_append_drop (n - m) (source.drop m)
    rw [finished, List.append_nil] at whole
    rw [List.filterMap_nil, List.flatMap_nil, weave, List.append_nil, whole]
  | cons piece pieces ih =>
    rw [List.flatMap_cons] at rest
    have behind : source.drop (n + piece.text.length) = pieces.flatMap Piece.text := by
      rw [← List.drop_drop, rest, List.drop_left]
    have here : (source.drop n).take piece.text.length = piece.text := by
      rw [rest, List.take_left]
    -- A piece that is not patched is kept by whatever comes behind it.
    have kept : Placed (n + piece.text.length) pieces →
        corePatch? spell lowered piece = none → respell spell lowered piece = piece.text →
        weave source m ((piece :: pieces).filterMap (corePatch? spell lowered)) =
          (source.drop m).take (n - m) ++
            (piece :: pieces).flatMap (respell spell lowered) := by
      intro placedBehind unpatched same
      rw [List.filterMap_cons_none unpatched, ih (by omega) behind placedBehind,
        take_take_add ordered, here, List.flatMap_cons, same, List.append_assoc]
    cases piece with
    | other t => exact kept placed rfl rfl
    | span start t =>
      obtain ⟨rfl, _, _, placedBehind⟩ := placed
      by_cases stays : insideRawBody lowered start = true ∨ strip t = [] ∨
          spell (strip t) = strip t
      · exact kept placedBehind (if_pos stays) (if_pos stays)
      · have core : strip t ≠ [] := fun empty => stays (.inr (.inl empty))
        have parts := Text.eq_blanks_append_strip core
        have patched : corePatch? spell lowered (.span start t) = some _ := if_neg stays
        have spelled : respell spell lowered (.span start t) = _ := if_neg stays
        have wide := congrArg List.length parts
        simp only [List.length_append] at wide
        have apart := rest.trans (congrArg (· ++ pieces.flatMap Piece.text) parts)
        rw [List.filterMap_cons_some patched, List.flatMap_cons, spelled, ← List.append_assoc]
        refine weave_core ordered apart ?_
        rw [ih (by simp only [Piece.text]; omega) behind placedBehind]
        congr 2
        simp only [Piece.text]
        omega

theorem inRow_pieces {source lowered : Text} {pieces : List Piece} {m n : Nat} (ordered : m ≤ n)
    (fits : n ≤ source.length) (rest : source.drop n = pieces.flatMap Piece.text)
    (placed : Placed n pieces) :
    InRow source m (pieces.filterMap (corePatch? spell lowered)) := by
  induction pieces generalizing m n with
  | nil => exact Nat.le_trans ordered fits
  | cons piece pieces ih =>
    rw [List.flatMap_cons] at rest
    have behind : source.drop (n + piece.text.length) = pieces.flatMap Piece.text := by
      rw [← List.drop_drop, rest, List.drop_left]
    have fitsBehind : n + piece.text.length ≤ source.length := by
      have := congrArg List.length rest
      rw [List.length_drop, List.length_append] at this
      omega
    cases piece with
    | other t => exact ih (Nat.le_trans ordered (Nat.le_add_right _ _)) fitsBehind behind placed
    | span start t =>
      obtain ⟨rfl, _, _, placedBehind⟩ := placed
      by_cases stays : insideRawBody lowered start = true ∨ strip t = [] ∨
          spell (strip t) = strip t
      · have unpatched : corePatch? spell lowered (.span start t) = none := if_pos stays
        rw [List.filterMap_cons_none unpatched]
        exact ih (Nat.le_trans ordered (Nat.le_add_right _ _)) fitsBehind behind placedBehind
      · have core : strip t ≠ [] := fun empty => stays (.inr (.inl empty))
        have patched : corePatch? spell lowered (.span start t) = some _ := if_neg stays
        have wide := congrArg List.length (Text.eq_blanks_append_strip core)
        have nonempty := List.length_pos_iff.2 core
        simp only [List.length_append] at wide
        simp only [Piece.text] at behind fitsBehind
        have coreEnd : start + (leadingBlanks t).length + (strip t).length ≤ start + t.length := by
          omega
        rw [List.filterMap_cons_some patched]
        exact ⟨by dsimp only; omega, by dsimp only; omega,
          ih coreEnd fitsBehind behind placedBehind⟩

theorem inRow_corePatches (rule : SpanRule) (spell : Text → Text) (content : Text) :
    InRow content 0 (corePatches rule spell content) :=
  inRow_pieces (Nat.le_refl 0) (Nat.zero_le _) (cut_text rule content).symm
    (cut_placed rule content)

theorem weave_corePatches (rule : SpanRule) (spell : Text → Text) (content : Text) :
    weave content 0 (corePatches rule spell content) =
      (cut rule content).flatMap (respell spell content.lower) :=
  weave_pieces (Nat.le_refl 0) (cut_text rule content).symm (cut_placed rule content)

/-- An edit of the spans replaces the cores that the visitor changes and keeps all else. -/
theorem editSpans_eq_weave (answers : Phrase.Answers good visit spell) (rule : SpanRule)
    (content : Text) {s : σ} (start : good s) :
    (editSpans rule visit content s).1 = weave content 0 (corePatches rule spell content) ∧
      good (editSpans rule visit content s).2 := by
  rw [weave_corePatches]
  exact editPieces_answers answers content.lower (cut rule content) start

/-! ## Edits that change nothing -/

theorem append_cons_cancel {c : CodePoint} {a b x y : Text} (free : c ∉ a) (freeToo : c ∉ b)
    (same : a ++ c :: x = b ++ c :: y) : a = b ∧ x = y := by
  rcases List.append_eq_append_iff.1 same with ⟨between, rfl, shifted⟩ | ⟨between, rfl, shifted⟩
  -- Were one of the parts longer, it would hold the separator of the other.
  all_goals
    cases between with
    | nil => simpa [eq_comm] using shifted
    | cons e between =>
      rw [List.cons_append, List.cons.injEq] at shifted
      obtain ⟨rfl, _⟩ := shifted
      simp at free freeToo

/-- New texts bring no `<` away: the pieces together have at least as many as before, and if
    they have no more, then the spans have none. -/
theorem count_respell {lowered : Text} {pieces : List Piece} {n : Nat}
    (placed : Placed n pieces) :
    (pieces.flatMap Piece.text).count (CodePoint.ofChar '<') ≤
        (pieces.flatMap (respell spell lowered)).count (CodePoint.ofChar '<') ∧
      ((pieces.flatMap (respell spell lowered)).count (CodePoint.ofChar '<') =
          (pieces.flatMap Piece.text).count (CodePoint.ofChar '<') →
        ∀ start t, Piece.span start t ∈ pieces →
          CodePoint.ofChar '<' ∉ respell spell lowered (.span start t)) := by
  induction pieces generalizing n with
  | nil => exact ⟨Nat.le_refl _, fun _ _ _ member => absurd member List.not_mem_nil⟩
  | cons piece pieces ih =>
    simp only [List.flatMap_cons, List.count_append]
    cases piece with
    | other t =>
      obtain ⟨least, exact⟩ := ih placed
      refine ⟨Nat.add_le_add_left least _, fun same start u member => ?_⟩
      rw [List.mem_cons] at member
      exact exact (Nat.add_left_cancel same) start u (member.resolve_left (by simp))
    | span start t =>
      obtain ⟨_, free, _, placedBehind⟩ := placed
      obtain ⟨least, exact⟩ := ih placedBehind
      have none_before : (Piece.span start t).text.count (CodePoint.ofChar '<') = 0 :=
        List.count_eq_zero.2 free
      rw [none_before]
      refine ⟨by omega, fun same place u member => ?_⟩
      rcases List.mem_cons.1 member with here | later
      · rw [here]
        exact List.count_eq_zero.1 (by omega)
      · exact exact (by omega) place u later

/-- Pieces that come out the same as a whole come out the same one by one. -/
theorem respell_eq_text {lowered : Text} {pieces : List Piece} {n : Nat}
    (placed : Placed n pieces)
    (same : pieces.flatMap (respell spell lowered) = pieces.flatMap Piece.text)
    (free : ∀ start t, Piece.span start t ∈ pieces →
      CodePoint.ofChar '<' ∉ respell spell lowered (.span start t)) :
    ∀ piece ∈ pieces, respell spell lowered piece = piece.text := by
  induction pieces generalizing n with
  | nil => exact fun _ member => absurd member List.not_mem_nil
  | cons piece pieces ih =>
    have freeBehind := fun start t member => free start t (List.mem_cons_of_mem piece member)
    rw [List.flatMap_cons, List.flatMap_cons] at same
    cases piece with
    | other t =>
      exact List.forall_mem_cons.2 ⟨rfl, ih placed (List.append_cancel_left same) freeBehind⟩
    | span start t =>
      obtain ⟨_, freeText, ⟨rest, rfl⟩, placedBehind⟩ := placed
      have here : respell spell lowered (.span start t) = t :=
        (append_cons_cancel (free start t List.mem_cons_self) freeText same).1
      rw [here] at same
      exact List.forall_mem_cons.2
        ⟨here, ih placedBehind (List.append_cancel_left same) freeBehind⟩

theorem corePatch?_eq_none {lowered : Text} {piece : Piece}
    (same : respell spell lowered piece = piece.text) : corePatch? spell lowered piece = none := by
  cases piece with
  | other t => rfl
  | span start t =>
    by_cases stays : insideRawBody lowered start = true ∨ strip t = [] ∨
        spell (strip t) = strip t
    · exact if_pos stays
    · have core : strip t ≠ [] := fun empty => stays (.inr (.inl empty))
      have spelled : respell spell lowered (.span start t) = _ := if_neg stays
      have whole := (spelled.symm.trans same).trans (Text.eq_blanks_append_strip core)
      exact absurd (.inr (.inr (List.append_cancel_left (List.append_cancel_right whole)))) stays

/-- An edit gives the document back only if it changes no core. -/
theorem weave_corePatches_eq_iff (rule : SpanRule) (spell : Text → Text) (content : Text) :
    weave content 0 (corePatches rule spell content) = content ↔
      corePatches rule spell content = [] := by
  constructor
  · intro unchanged
    have placed := cut_placed rule content
    have same : (cut rule content).flatMap (respell spell content.lower) =
        (cut rule content).flatMap Piece.text := by
      rw [← weave_corePatches, unchanged, cut_text]
    -- The edited document has no more `<` than before, so no span has gained one, and its pieces
    -- can be told apart.
    have each := respell_eq_text placed same
      ((count_respell placed).2 (congrArg (List.count (CodePoint.ofChar '<')) same))
    rw [corePatches, List.filterMap_eq_nil_iff]
    exact fun piece member => corePatch?_eq_none (each piece member)
  · intro nothing
    rw [nothing]
    rfl

end Arabize.Markup
