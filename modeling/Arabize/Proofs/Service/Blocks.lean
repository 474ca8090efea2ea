import Arabize.Proofs.Text.Search
import Arabize.Service.Answer
import Mathlib.Data.List.Infix
import Mathlib.Data.List.TakeWhile

/-! # The first block of a text

The search for a block counts brackets of one kind.  Where it stops, as many of them have been
closed as were opened, for the first time since the start of the block (`closingLength_cases`); if
that never happens, the block goes up to the last closing bracket (`block_shortest`).
It asks nothing else of the text, so a block that encloses a document is the document exactly if
no proper beginning of it is balanced; otherwise it is such a beginning (`blockAt_append`).
-/

namespace Arabize.Answer

open Text (tally)

variable {o c x : CodePoint} {depth : Nat} {t front behind : Text}

/-! ## Counting brackets -/

theorem tally_cons (c x : CodePoint) (t : Text) :
    tally c (x :: t) = (if x = c then 1 else 0) + tally c t := by
  simp only [tally, List.filter_cons, beq_iff_eq]
  split <;> simp [Nat.add_comm]

theorem tally_append (c : CodePoint) (s t : Text) : tally c (s ++ t) = tally c s + tally c t := by
  simp [tally]

theorem tally_of_not_mem (absent : c ∉ t) : tally c t = 0 := by
  simp only [tally, List.length_eq_zero_iff, List.filter_eq_nil_iff, beq_iff_eq]
  rintro x member rfl
  exact absent member

/-- Brackets are still open behind a text, with `depth` of them open before it. -/
def Open (o c : CodePoint) (depth : Nat) (t : Text) : Prop := tally c t < depth + tally o t

/-- The last bracket is closed at the end of a text, and not before. -/
structure Closes (o c : CodePoint) (depth : Nat) (t : Text) : Prop where
  balanced : depth + tally o t = tally c t
  early : ∀ {short}, short <+: t → short ≠ t → Open o c depth short

/-- How many brackets are open behind a code point. -/
def Shifts (o c : CodePoint) (x : CodePoint) (depth next : Nat) : Prop :=
  depth + (if x = o then 1 else 0) = next + (if x = c then 1 else 0)

theorem open_cons_iff {next : Nat} (shifts : Shifts o c x depth next) :
    Open o c depth (x :: t) ↔ Open o c next t := by
  unfold Open Shifts at *
  rw [tally_cons, tally_cons]
  omega

theorem Closes.cons {next : Nat} (closes : Closes o c next t) (positive : 0 < depth)
    (shifts : Shifts o c x depth next) : Closes o c depth (x :: t) := by
  refine ⟨?_, fun {short} cut proper => ?_⟩
  · have balanced := closes.balanced
    unfold Shifts at shifts
    rw [tally_cons, tally_cons]
    omega
  · cases short with
    | nil => exact positive
    | cons y short =>
      obtain ⟨rfl, inside⟩ := List.cons_prefix_cons.1 cut
      exact (open_cons_iff shifts).2 (closes.early inside fun same => proper (congrArg _ same))

/-- The search takes a code point, which closes the last bracket or leaves some open. -/
theorem closingLength_cons (differ : o ≠ c) (positive : 0 < depth) (x : CodePoint) (t : Text) :
    x = c ∧ depth = 1 ∧ closingLength o c depth (x :: t) = some 1 ∨
      ∃ next, 0 < next ∧ Shifts o c x depth next ∧
        closingLength o c depth (x :: t) = (closingLength o c next t).map (· + 1) := by
  unfold Shifts
  rw [closingLength]
  split
  next opening =>
    subst opening
    exact .inr ⟨depth + 1, by omega, by simp [differ], rfl⟩
  next =>
    split
    next closing =>
      subst closing
      split
      next last => exact .inl ⟨rfl, last, rfl⟩
      next more => exact .inr ⟨depth - 1, by omega, by simp; omega, rfl⟩
    next => exact .inr ⟨depth, positive, rfl, rfl⟩

/-- The search stops where all brackets are closed for the first time. -/
theorem closingLength_cases (differ : o ≠ c) (positive : 0 < depth) (t : Text) :
    (∃ front rest, t = front ++ rest ∧ closingLength o c depth t = some front.length ∧
        Closes o c depth front) ∨
      closingLength o c depth t = none ∧ ∀ front, front <+: t → Open o c depth front := by
  induction t generalizing depth with
  | nil =>
    refine .inr ⟨rfl, fun front cut => ?_⟩
    rw [List.prefix_nil.1 cut]
    exact positive
  | cons x t ih =>
    rcases closingLength_cons differ positive x t with
      ⟨rfl, rfl, stops⟩ | ⟨next, more, shifts, goesOn⟩
    · refine .inl ⟨[x], t, rfl, stops, ?_, fun {short} cut proper => ?_⟩
      · simp [tally, Ne.symm differ]
      · rw [(List.prefix_concat_iff.1 cut).resolve_left proper |> List.prefix_nil.1]
        exact positive
    · rw [goesOn]
      rcases ih more with ⟨front, rest, rfl, stops, closes⟩ | ⟨unclosed, opened⟩
      · rw [stops]
        exact .inl ⟨x :: front, rest, rfl, rfl, closes.cons positive shifts⟩
      · rw [unclosed]
        refine .inr ⟨rfl, fun front cut => ?_⟩
        cases front with
        | nil => exact positive
        | cons y front =>
          obtain ⟨rfl, inside⟩ := List.cons_prefix_cons.1 cut
          exact (open_cons_iff shifts).2 (opened front inside)

/-- A beginning in which as many brackets are closed as were opened, for the first time. -/
structure Balanced (o c : CodePoint) (t : Text) : Prop where
  filled : t ≠ []
  even : tally o t = tally c t
  early : ∀ {short}, short <+: t → short ≠ [] → short ≠ t → tally c short < tally o short

/-- A block ends where as many brackets have been closed as were opened, or if they never are,
    with the last one that is closed. -/
theorem blockAt_cases (differ : o ≠ closingOf o) (t : Text) :
    (∃ front rest, o :: t = front ++ rest ∧ blockAt o (o :: t) = some front ∧
        Balanced o (closingOf o) front) ∨
      blockAt o (o :: t) =
          (Text.findLast? [closingOf o] (o :: t)).map (fun i => (o :: t).take (i + 1)) ∧
        ∀ front, front <+: o :: t → front ≠ [] → tally (closingOf o) front < tally o front := by
  have shifts : Shifts o (closingOf o) o 0 1 := by simp [Shifts, differ]
  have opens : ∀ {front : Text}, Open o (closingOf o) 1 front →
      tally (closingOf o) (o :: front) < tally o (o :: front) :=
    fun opened => Nat.zero_add (tally o _) ▸ (open_cons_iff shifts).2 opened
  -- The bracket that a block starts with is the first one to be counted.
  have first : closingLength o (closingOf o) 0 (o :: t) =
      (closingLength o (closingOf o) 1 t).map (· + 1) := by
    rw [closingLength, if_pos rfl]
  unfold blockAt
  dsimp only
  rw [first]
  rcases closingLength_cases differ Nat.one_pos t with
    ⟨front, rest, rfl, stops, closes⟩ | ⟨unclosed, opened⟩
  · rw [stops]
    have block : (o :: (front ++ rest)).take (front.length + 1) = o :: front := by
      rw [List.take_succ_cons, List.take_left]
    refine .inl ⟨o :: front, rest, rfl, congrArg some block, List.cons_ne_nil _ _, ?_,
      fun {short} cut filled proper => ?_⟩
    · have even := closes.balanced
      rw [tally_cons, tally_cons, if_pos rfl, if_neg differ]
      omega
    · obtain ⟨y, short, rfl⟩ := List.exists_cons_of_ne_nil filled
      obtain ⟨rfl, inside⟩ := List.cons_prefix_cons.1 cut
      exact opens (closes.early inside fun same => proper (congrArg _ same))
  · rw [unclosed]
    refine .inr ⟨rfl, fun front cut filled => ?_⟩
    obtain ⟨y, front, rfl⟩ := List.exists_cons_of_ne_nil filled
    obtain ⟨rfl, inside⟩ := List.cons_prefix_cons.1 cut
    exact opens (opened front inside)

/-! ## The first block -/

theorem block?_append {before : Text} (plain : ∀ x ∈ before, isOpening x = false)
    (opening : isOpening o = true) (t : Text) : block? (before ++ o :: t) = blockAt o (o :: t) := by
  have skipped : (before ++ o :: t).dropWhile (fun c => !isOpening c) = o :: t := by
    rw [List.dropWhile_append_of_pos fun x member => by rw [plain x member]; rfl,
      List.dropWhile_cons_of_neg (by simp [opening])]
  unfold block?
  rw [skipped]

/-- The last bracket of a balanced block closes it. -/
theorem Balanced.closed (balanced : Balanced o c (o :: t)) (differ : o ≠ c) :
    ∃ inner, t = inner ++ [c] := by
  have even := balanced.even
  rcases List.eq_nil_or_concat t with rfl | ⟨inner, x, rfl⟩
  · simp [tally, differ] at even
  · -- Before the last code point some bracket was open, and now none is.
    have begins : o :: inner <+: o :: inner.concat x := ⟨[x], by simp⟩
    have opened := balanced.early begins (by simp) (by simp)
    have last : x = c := by
      by_contra other
      have uncounted : tally c [x] = 0 := tally_of_not_mem (by simpa using Ne.symm other)
      rw [List.concat_eq_append, ← List.cons_append, tally_append, tally_append] at even
      omega
    exact ⟨inner, by rw [last, List.concat_eq_append]⟩

/-- Before a text ends, as many brackets have been closed in it as were opened. -/
def ClosesEarly (o c : CodePoint) (t : Text) : Prop :=
  ∃ front, front <+: t ∧ front ≠ [] ∧ front ≠ t ∧ tally o front = tally c front

/-- A text in brackets with nothing but other text behind it is the block that starts with it,
    unless it closes early; then a proper beginning of it is the block. -/
theorem blockAt_append (differ : o ≠ closingOf o) (noOpening : o ∉ behind)
    (noClosing : closingOf o ∉ behind) (inner : Text) :
    let doc := o :: (inner ++ [closingOf o])
    (¬ ClosesEarly o (closingOf o) doc ∧ blockAt o (doc ++ behind) = some doc) ∨
      ClosesEarly o (closingOf o) doc ∧
        ∃ front, front <+: doc ∧ front ≠ doc ∧ blockAt o (doc ++ behind) = some front := by
  intro doc
  have split : doc ++ behind = o :: (inner ++ [closingOf o] ++ behind) := rfl
  rw [split]
  rcases blockAt_cases differ (inner ++ [closingOf o] ++ behind) with
    ⟨front, rest, whole, block, balanced⟩ | ⟨block, opened⟩
  · rw [block]
    by_cases same : front = doc
    · subst same
      refine .inl ⟨?_, rfl⟩
      rintro ⟨short, cut, filled, proper, even⟩
      exact absurd even (Nat.ne_of_gt (balanced.early cut filled proper))
    rcases List.append_eq_append_iff.1 (split.trans whole) with
      ⟨more, rfl, rfl⟩ | ⟨more, cut, _⟩
    · -- No bracket stands behind the document, so it would have been balanced before.
      have even := balanced.even
      have doc_open := balanced.early (List.prefix_append doc more) (List.cons_ne_nil _ _)
        (Ne.symm same)
      rw [tally_append, tally_append, tally_of_not_mem fun member => noOpening
        (List.mem_append_left _ member), tally_of_not_mem fun member => noClosing
        (List.mem_append_left _ member)] at even
      omega
    · have begins : front <+: doc := ⟨more, cut.symm⟩
      exact .inr ⟨⟨front, begins, balanced.filled, same, balanced.even⟩, front, begins, same, rfl⟩
  · refine .inl ⟨?_, ?_⟩
    · rintro ⟨short, cut, filled, _, even⟩
      exact absurd even (Nat.ne_of_gt (opened short (cut.trans (List.prefix_append doc _)) filled))
    · have last : o :: (inner ++ [closingOf o] ++ behind) = (o :: inner) ++ closingOf o :: behind := by
        simp
      rw [block, last, Text.findLast?_append noClosing, Option.map_some,
        List.take_length_add_append]
      rfl

end Arabize.Answer
