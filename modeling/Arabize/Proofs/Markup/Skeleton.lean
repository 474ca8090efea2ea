import Arabize.Proofs.Markup.Texts
import Arabize.Proofs.Text.Decimal
import Arabize.Proofs.Text.Split

/-! # The skeleton of a page

The `<` of a page cut it into segments, and each segment but the first begins with what is left
of a tag.  An edit of the text spans goes from segment to segment: it keeps a segment up to its
first `>`, and behind that it puts an answer in the place of the text, the blanks around it kept
(`Renders`).  As long as no answer holds a `<`, the edited page falls into just as many segments,
so that none of its tags is touched (`editSpans_skeleton`).
-/

namespace Arabize.Markup

open Text (strip leadingBlanks trailingBlanks splitOn)

variable {σ : Type} {visit : Text → StateM σ Text} {lowered : Text}

/-- How the segments of a page are edited from an offset on: from which segments and which state
    of the visitor, with which texts visited in order, to which segments and which state. -/
inductive Renders (visit : Text → StateM σ Text) (lowered : Text) :
    Nat → List Text → σ → List Text → List Text → σ → Prop
  /-- Nothing ends the text of the last segment, so it is no span. -/
  | last {n segment s} : Renders visit lowered n [segment] s [] [segment] s
  /-- Without a `>` there is no text either. -/
  | unclosed {n segment segments s texts edited after} : CodePoint.ofChar '>' ∉ segment →
      Renders visit lowered (n + segment.length + 1) segments s texts edited after →
      Renders visit lowered n (segment :: segments) s texts (segment :: edited) after
  /-- A text that is blank, or code, is kept. -/
  | silent {n tag t segments s texts edited after} : CodePoint.ofChar '>' ∉ tag →
      strip t = [] ∨ insideRawBody lowered (n + tag.length + 1) = true →
      Renders visit lowered (n + (tag ++ CodePoint.ofChar '>' :: t).length + 1) segments s texts
        edited after →
      Renders visit lowered n ((tag ++ CodePoint.ofChar '>' :: t) :: segments) s texts
        ((tag ++ CodePoint.ofChar '>' :: t) :: edited) after
  /-- The core of any other text is visited, and the answer takes its place. -/
  | spoken {n tag t segments s answer next texts edited after} : CodePoint.ofChar '>' ∉ tag →
      strip t ≠ [] → insideRawBody lowered (n + tag.length + 1) = false →
      visit (strip t) s = (answer, next) →
      Renders visit lowered (n + (tag ++ CodePoint.ofChar '>' :: t).length + 1) segments next texts
        edited after →
      Renders visit lowered n ((tag ++ CodePoint.ofChar '>' :: t) :: segments) s (strip t :: texts)
        ((tag ++ CodePoint.ofChar '>' :: (leadingBlanks t ++ answer ++ trailingBlanks t)) :: edited)
        after

theorem Renders.length {n : Nat} {segments texts edited : List Text} {s after : σ}
    (renders : Renders visit lowered n segments s texts edited after) :
    edited.length = segments.length := by
  induction renders with
  | last => rfl
  | unclosed _ _ ih | silent _ _ _ ih | spoken _ _ _ _ _ ih => exact congrArg (· + 1) ih

/-! ## One segment -/

/-- In markup it does not matter what stands before a `>`. -/
theorem cutFrom_before (n : Nat) (open? : Option Run) (before : Option CodePoint) (t : Text) :
    cutFrom markupSpans n open? before t = cutFrom markupSpans n open? none t := by
  cases t <;> cases open? <;> rfl

/-- Up to a `>` nothing opens a run. -/
theorem cutFrom_closed {tag : Text} (free : CodePoint.ofChar '>' ∉ tag) (n : Nat) (t : Text) :
    cutFrom markupSpans n none none (tag ++ t) =
      tag.map (fun c => .other [c]) ++ cutFrom markupSpans (n + tag.length) none none t := by
  induction tag generalizing n with
  | nil => rfl
  | cons c tag ih =>
    rw [List.mem_cons, not_or] at free
    have other : ¬ (c = CodePoint.ofChar '>' ∧ markupSpans.opens none = true) :=
      fun both => free.1 both.1.symm
    rw [List.cons_append, cutFrom, if_neg other, cutFrom_before, ih free.2, List.map_cons,
      List.cons_append, List.length_cons]
    congr 3
    omega

theorem cutFrom_opened (n : Nat) (t : Text) :
    cutFrom markupSpans n none none (CodePoint.ofChar '>' :: t) =
      .other [CodePoint.ofChar '>'] :: cutFrom markupSpans (n + 1) (some ⟨n + 1, []⟩) none t := by
  rw [cutFrom, if_pos ⟨rfl, rfl⟩, cutFrom_before]

/-- A run goes on up to the next `<`. -/
theorem cutFrom_run {t : Text} (free : CodePoint.ofChar '<' ∉ t) (n start : Nat)
    (reversed rest : Text) :
    cutFrom markupSpans n (some ⟨start, reversed⟩) none (t ++ CodePoint.ofChar '<' :: rest) =
      Run.close ⟨start, t.reverse ++ reversed⟩ :: .other [CodePoint.ofChar '<'] ::
        cutFrom markupSpans (n + t.length + 1) none none rest := by
  induction t generalizing n reversed with
  | nil => rw [List.nil_append, cutFrom, if_pos rfl, cutFrom_before]; rfl
  | cons c t ih =>
    rw [List.mem_cons, not_or] at free
    rw [List.cons_append, cutFrom, if_neg (Ne.symm free.1), if_neg (by simp [markupSpans]),
      cutFrom_before, ih free.2, List.reverse_cons, List.append_assoc, List.length_cons]
    congr 4
    omega

/-- A run that no `<` ends is no span. -/
theorem cutFrom_unended {t : Text} (free : CodePoint.ofChar '<' ∉ t) (n : Nat) (run : Run) :
    cutFrom markupSpans n (some run) none t = [.other (run.reversed.reverse ++ t)] := by
  induction t generalizing n run with
  | nil => rw [cutFrom, List.append_nil]
  | cons c t ih =>
    rw [List.mem_cons, not_or] at free
    rw [cutFrom, if_neg (Ne.symm free.1), if_neg (by simp [markupSpans]), cutFrom_before,
      ih free.2, List.reverse_cons, List.append_assoc]
    rfl

/-! ## Pieces that are edited -/

theorem editPieces_append (pieces more : List Piece) (s : σ) :
    editPieces visit lowered (pieces ++ more) s =
      ((editPieces visit lowered pieces s).1 ++
        (editPieces visit lowered more (editPieces visit lowered pieces s).2).1,
        (editPieces visit lowered more (editPieces visit lowered pieces s).2).2) := by
  induction pieces generalizing s with
  | nil => rfl
  | cons piece pieces ih =>
    change ((editPiece visit lowered piece s).1 ++ (editPieces visit lowered (pieces ++ more) _).1,
      (editPieces visit lowered (pieces ++ more) _).2) = _
    rw [ih]
    exact Prod.ext (List.append_assoc _ _ _).symm rfl

/-- What is no span is kept, code point by code point. -/
theorem editPieces_others (kept : Text) (s : σ) :
    editPieces visit lowered (kept.map fun c => .other [c]) s = (kept, s) := by
  induction kept with
  | nil => rfl
  | cons c kept ih =>
    change ([c] ++ (editPieces visit lowered _ s).1, (editPieces visit lowered _ s).2) = _
    rw [ih]
    rfl

theorem pieceTexts_others (kept : Text) :
    (kept.map fun c => Piece.other [c]).filterMap (pieceText? lowered) = [] := by
  rw [List.filterMap_map, List.filterMap_eq_nil_iff]
  exact fun _ _ => rfl

/-- A tag and what stands behind it. -/
def tagged (tag : Text) (behind : Piece) : List Piece :=
  tag.map (fun c => .other [c]) ++ [.other [CodePoint.ofChar '>'], behind]

theorem editPieces_tagged (tag : Text) {behind : Piece} {t : Text} {s next : σ}
    (edits : editPiece visit lowered behind s = (t, next)) :
    editPieces visit lowered (tagged tag behind) s = (tag ++ CodePoint.ofChar '>' :: t, next) := by
  rw [tagged, editPieces_append, editPieces_others]
  change (tag ++ ([CodePoint.ofChar '>'] ++ ((editPiece visit lowered behind s).1 ++ [])),
    (editPiece visit lowered behind s).2) = _
  rw [edits, List.append_nil, List.singleton_append]

theorem pieceTexts_tagged (tag : Text) (behind : Piece) :
    (tagged tag behind).filterMap (pieceText? lowered) = (pieceText? lowered behind).toList := by
  rw [tagged, List.filterMap_append, pieceTexts_others, List.nil_append,
    List.filterMap_cons_none rfl, List.filterMap_cons]
  cases pieceText? lowered behind <;> rfl

section Closed

variable {t : Text} {start : Nat}

/-- A run that was closed is kept if it is blank, or code. -/
theorem editPiece_silent (silent : strip t = [] ∨ insideRawBody lowered start = true) (s : σ) :
    editPiece visit lowered (Run.close ⟨start, t.reverse⟩) s = (t, s) ∧
      pieceText? lowered (Run.close ⟨start, t.reverse⟩) = none := by
  unfold Run.close
  split
  next empty =>
    rw [List.reverse_eq_nil_iff.1 empty]
    exact ⟨rfl, rfl⟩
  next =>
    rw [List.reverse_reverse]
    refine ⟨?_, if_pos silent.symm⟩
    rw [editPiece]
    split
    · rfl
    next outside => rw [visitCore_run, if_pos (silent.resolve_right outside)]

/-- Of any other run the core is visited. -/
theorem editPiece_spoken (core : strip t ≠ []) (outside : insideRawBody lowered start = false)
    (s : σ) : editPiece visit lowered (Run.close ⟨start, t.reverse⟩) s =
        (leadingBlanks t ++ (visit (strip t) s).1 ++ trailingBlanks t, (visit (strip t) s).2) ∧
      pieceText? lowered (Run.close ⟨start, t.reverse⟩) = some (strip t) := by
  have filled : t.reverse ≠ [] := by
    intro empty
    rw [List.reverse_eq_nil_iff.1 empty] at core
    exact core rfl
  rw [Run.close, if_neg filled, List.reverse_reverse]
  refine ⟨?_, if_neg (by simp [outside, core])⟩
  rw [editPiece, if_neg (by simp [outside]), visitCore_run, if_neg core]
  split
  -- An answer that changes nothing gives the text between its blanks as well.
  next same => rw [same, ← Text.eq_blanks_append_strip core]
  · rfl

end Closed

/-! ## The page -/

/-- A text that was answered brings no `<` in if the answer does not. -/
theorem not_mem_spoken {tag t answer : Text}
    (free : CodePoint.ofChar '<' ∉ tag ++ CodePoint.ofChar '>' :: t)
    (closed : CodePoint.ofChar '<' ∉ answer) : CodePoint.ofChar '<' ∉
      tag ++ CodePoint.ofChar '>' :: (leadingBlanks t ++ answer ++ trailingBlanks t) := by
  have front : leadingBlanks t ⊆ t := (List.takeWhile_prefix _).subset
  have back : trailingBlanks t ⊆ t := List.drop_subset _ t
  simp only [List.mem_append, List.mem_cons, not_or] at free ⊢
  exact ⟨free.1, free.2.1, ⟨fun here => free.2.2 (front here), closed⟩,
    fun here => free.2.2 (back here)⟩

/-- The edit of a page whose first segment is known, and what is visited. -/
theorem editPieces_segment {segment rest out : Text} {texts : List Text} {here : List Piece}
    {n : Nat} {s next : σ}
    (cut : cutFrom markupSpans n none none (segment ++ CodePoint.ofChar '<' :: rest) =
      here ++ .other [CodePoint.ofChar '<'] ::
        cutFrom markupSpans (n + segment.length + 1) none none rest)
    (edits : editPieces visit lowered here s = (out, next))
    (visited : here.filterMap (pieceText? lowered) = texts) (free : CodePoint.ofChar '<' ∉ out) :
    let whole := cutFrom markupSpans n none none (segment ++ CodePoint.ofChar '<' :: rest)
    let behind := cutFrom markupSpans (n + segment.length + 1) none none rest
    whole.filterMap (pieceText? lowered) = texts ++ behind.filterMap (pieceText? lowered) ∧
    splitOn (CodePoint.ofChar '<') (editPieces visit lowered whole s).1 =
      out :: splitOn (CodePoint.ofChar '<') (editPieces visit lowered behind next).1 ∧
    (editPieces visit lowered whole s).2 = (editPieces visit lowered behind next).2 := by
  intro whole behind
  have all : editPieces visit lowered whole s = (out ++ CodePoint.ofChar '<' ::
      (editPieces visit lowered behind next).1, (editPieces visit lowered behind next).2) := by
    rw [show whole = _ from cut, editPieces_append, edits]
    rfl
  refine ⟨?_, ?_, by rw [all]⟩
  · rw [show whole = _ from cut, List.filterMap_append, visited, List.filterMap_cons]
    rfl
  · rw [all, Text.splitOn_append, Text.splitOn_of_not_mem free, List.singleton_append]

/-- A segment with a `>` in it is a tag and a run, which the `<` behind the segment closes. -/
theorem cutFrom_tagged {tag t : Text} (plain : CodePoint.ofChar '>' ∉ tag)
    (free : CodePoint.ofChar '<' ∉ t) (n : Nat) (rest : Text) :
    cutFrom markupSpans n none none
        ((tag ++ CodePoint.ofChar '>' :: t) ++ CodePoint.ofChar '<' :: rest) =
      tagged tag (Run.close ⟨n + tag.length + 1, t.reverse⟩) ++ .other [CodePoint.ofChar '<'] ::
        cutFrom markupSpans (n + (tag ++ CodePoint.ofChar '>' :: t).length + 1) none none rest := by
  rw [List.append_assoc, cutFrom_closed plain, List.cons_append, cutFrom_opened, cutFrom_run free,
    List.append_nil, List.length_append, List.length_cons, tagged, List.append_assoc]
  congr 5
  omega

theorem cutFrom_untagged {segment : Text} (plain : CodePoint.ofChar '>' ∉ segment) (n : Nat)
    (rest : Text) :
    cutFrom markupSpans n none none (segment ++ CodePoint.ofChar '<' :: rest) =
      segment.map (fun c => .other [c]) ++ .other [CodePoint.ofChar '<'] ::
        cutFrom markupSpans (n + segment.length + 1) none none rest := by
  rw [cutFrom_closed plain, cutFrom, if_neg (by decide), cutFrom_before]

/-- In the last segment a run that is opened is never closed, so nothing is visited. -/
theorem editPieces_last {t : Text} (last : CodePoint.ofChar '<' ∉ t) (n : Nat) (s : σ) :
    editPieces visit lowered (cutFrom markupSpans n none none t) s = (t, s) ∧
      (cutFrom markupSpans n none none t).filterMap (pieceText? lowered) = [] := by
  by_cases ended : CodePoint.ofChar '>' ∈ t
  · obtain ⟨tag, u, rfl, plain⟩ := List.eq_append_cons_of_mem ended
    have free : CodePoint.ofChar '<' ∉ u := fun member =>
      last (List.mem_append_right _ (List.mem_cons_of_mem _ member))
    have cut : cutFrom markupSpans n none none (tag ++ CodePoint.ofChar '>' :: u) =
        tagged tag (.other u) := by
      rw [cutFrom_closed plain, cutFrom_opened, cutFrom_unended free]
      rfl
    rw [cut]
    exact ⟨editPieces_tagged tag rfl, pieceTexts_tagged tag _⟩
  · have cut := cutFrom_closed ended n []
    rw [List.append_nil, cutFrom, List.append_nil] at cut
    rw [cut]
    exact ⟨editPieces_others t s, pieceTexts_others t⟩

/-- The rest of a page, from an offset on where no run is open. -/
theorem editPieces_renders (closed : ∀ t s, CodePoint.ofChar '<' ∉ (visit t s).1)
    (lowered : Text) (n : Nat) (t : Text) (s : σ) :
    Renders visit lowered n (splitOn (CodePoint.ofChar '<') t) s
      ((cutFrom markupSpans n none none t).filterMap (pieceText? lowered))
      (splitOn (CodePoint.ofChar '<')
        (editPieces visit lowered (cutFrom markupSpans n none none t) s).1)
      (editPieces visit lowered (cutFrom markupSpans n none none t) s).2 := by
  -- On the length of the rest: one segment is taken off at a time.
  by_cases more : CodePoint.ofChar '<' ∈ t
  · obtain ⟨segment, rest, rfl, free⟩ := List.eq_append_cons_of_mem more
    rw [Text.splitOn_append, Text.splitOn_of_not_mem free, List.singleton_append]
    by_cases ended : CodePoint.ofChar '>' ∈ segment
    · obtain ⟨tag, u, rfl, plain⟩ := List.eq_append_cons_of_mem ended
      have cut := cutFrom_tagged plain
        (fun member => free (List.mem_append_right _ (List.mem_cons_of_mem _ member))) n rest
      by_cases silent : strip u = [] ∨ insideRawBody lowered (n + tag.length + 1) = true
      · obtain ⟨kept, unvisited⟩ : editPiece visit lowered _ s = _ ∧ _ := editPiece_silent silent s
        obtain ⟨texts, edited, after⟩ := editPieces_segment cut (editPieces_tagged tag kept)
          (pieceTexts_tagged tag _) free
        rw [unvisited] at texts
        rw [texts, edited, after]
        exact .silent plain silent (editPieces_renders closed lowered _ rest s)
      · rw [not_or, Bool.not_eq_true] at silent
        obtain ⟨spoken, visited⟩ : editPiece visit lowered _ s = _ ∧ _ :=
          editPiece_spoken silent.1 silent.2 s
        obtain ⟨texts, edited, after⟩ := editPieces_segment cut (editPieces_tagged tag spoken)
          (pieceTexts_tagged tag _) (not_mem_spoken free (closed _ s))
        rw [visited] at texts
        rw [texts, edited, after]
        exact .spoken plain silent.1 silent.2 rfl (editPieces_renders closed lowered _ rest _)
    · obtain ⟨texts, edited, after⟩ := editPieces_segment (cutFrom_untagged ended n rest)
        (editPieces_others segment s) (pieceTexts_others segment) free
      rw [texts, edited, after]
      exact .unclosed ended (editPieces_renders closed lowered _ rest s)
  · obtain ⟨kept, unvisited⟩ := @editPieces_last _ visit lowered _ more n s
    rw [kept, unvisited, Text.splitOn_of_not_mem more]
    exact .last
termination_by t.length

/-- An edit of the text spans of a page with a visitor that never answers with a `<` keeps the
    tags.  Split at its `<` the edited page has as many segments as the page, and each of them is
    the one of the page with the core of its text, if that is to be visited, replaced by the
    answer.  The texts that are visited are these cores, each once and in order. -/
theorem editSpans_skeleton (closed : ∀ t s, CodePoint.ofChar '<' ∉ (visit t s).1)
    (content : Text) (s : σ) :
    ∃ edited after texts, editSpans markupSpans visit content s = (edited, after) ∧
      editSpans markupSpans (noting visit) content (s, []) = (edited, after, texts) ∧
      (splitOn (CodePoint.ofChar '<') edited).length =
        (splitOn (CodePoint.ofChar '<') content).length ∧
      Renders visit content.lower 0 (splitOn (CodePoint.ofChar '<') content) s texts
        (splitOn (CodePoint.ofChar '<') edited) after := by
  have renders := editPieces_renders closed content.lower 0 content s
  exact ⟨_, _, _, rfl, editSpans_notes markupSpans visit content s [], renders.length, renders⟩

/-- A visitor that numbers the texts. -/
def numbering (_ : Text) : StateM Nat Text := fun n => (Text.ofNat n, n + 1)

/-- A page with a text in front of its tags, a `>` within a text, code, and a blank text. -/
def mixedPage : Text := "a > b<p> Hi > you </p><script>x > y</script><br> <b>"

/-- The same page with its texts numbered. -/
def numberedPage : Text := "a > 1<p> 2 </p><script>x > y</script><br> <b>"

theorem editSpans_skeleton_numbered :
    (∀ t n, CodePoint.ofChar '<' ∉ (numbering t n).1) ∧
    editSpans markupSpans numbering mixedPage 1 = (numberedPage, 3) ∧
    editSpans markupSpans (noting numbering) mixedPage (1, []) =
      (numberedPage, 3, [Text.ofString "b", Text.ofString "Hi > you"]) ∧
    Renders numbering mixedPage.lower 0
      ["a > b", "p> Hi > you ", "/p>", "script>x > y", "/script>", "br> ", "b>"] 1
      ["b", "Hi > you"]
      ["a > 1", "p> 2 ", "/p>", "script>x > y", "/script>", "br> ", "b>"] 3 := by
  have closed : ∀ t n, CodePoint.ofChar '<' ∉ (numbering t n).1 := by
    intro t n member
    have digit := Text.isDigit_of_mem_ofNat member
    revert digit
    decide
  obtain ⟨edited, after, texts, edits, notes, _, renders⟩ := editSpans_skeleton closed mixedPage 1
  have given : editSpans markupSpans (noting numbering) mixedPage (1, []) =
      (numberedPage, 3, [Text.ofString "b", Text.ofString "Hi > you"]) := by
    change @Eq (Text × Nat × List Text) _ _
    decide +kernel
  cases notes.symm.trans given
  have segments : splitOn (CodePoint.ofChar '<') mixedPage = List.map Text.ofString
        ["a > b", "p> Hi > you ", "/p>", "script>x > y", "/script>", "br> ", "b>"] ∧
      splitOn (CodePoint.ofChar '<') numberedPage = List.map Text.ofString
        ["a > 1", "p> 2 ", "/p>", "script>x > y", "/script>", "br> ", "b>"] := by
    decide
  rw [segments.1, segments.2] at renders
  exact ⟨closed, edits, given, renders⟩

end Arabize.Markup
