import Arabize.Proofs.Markup.Reading
import Arabize.Proofs.Text.Search
import Arabize.Service.Answer
import Mathlib.Data.List.Infix

/-! # Fences

An answer is read a second time without its fences.  They are taken out twice: first with what
follows them, and then once more by themselves.  Both times the text is followed up to a fence, and
what goes with the fence are letters and blanks (`Erasure`); so a text without fences stays as it
is, and any other one gets shorter.
-/

namespace Arabize.Answer

variable {f : Text → Text} {c : CodePoint} {s t : Text}

/-! ## Texts without fences -/

def Unfenced (t : Text) : Prop := ¬ fence <:+: t

theorem fence_eq :
    fence = [CodePoint.ofChar '`', CodePoint.ofChar '`', CodePoint.ofChar '`'] := rfl

theorem eq_backtick_of_mem (member : c ∈ fence) : c = CodePoint.ofChar '`' := by
  rw [fence_eq] at member
  simpa using member

/-- A fence in two texts one behind the other is in one of them, unless they meet in backticks. -/
theorem unfenced_append (front : Unfenced s) (back : Unfenced t)
    (apart : s.getLast? ≠ some (CodePoint.ofChar '`') ∨ t.head? ≠ some (CodePoint.ofChar '`')) :
    Unfenced (s ++ t) := by
  rintro ⟨before, behind, same⟩
  rcases List.append_eq_append_iff.1 same with ⟨more, rfl, _⟩ | ⟨more, cut, rfl⟩
  · exact front ⟨before, more, rfl⟩
  rcases List.append_eq_append_iff.1 cut with ⟨left, rfl, split⟩ | ⟨left, _, rfl⟩
  swap
  · exact back ⟨left, behind, rfl⟩
  -- The fence is cut in two.
  have ofLeft : ∀ c ∈ left, c = CodePoint.ofChar '`' := fun c member =>
    eq_backtick_of_mem (split ▸ List.mem_append_left _ member)
  have ofRight : ∀ c ∈ more, c = CodePoint.ofChar '`' := fun c member =>
    eq_backtick_of_mem (split ▸ List.mem_append_right _ member)
  rcases List.eq_nil_or_concat' left with rfl | ⟨init, c, rfl⟩
  · exact back ⟨[], behind, by rw [List.nil_append] at split; rw [split]; rfl⟩
  cases more with
  | nil => exact front ⟨before, [], by rw [List.append_nil] at split; rw [split, List.append_nil]⟩
  | cons d more =>
    have last := ofLeft c (List.mem_append_right _ (List.mem_singleton_self c))
    have first := ofRight d List.mem_cons_self
    subst last
    subst first
    simp at apart

theorem Unfenced.of_infix (unfenced : Unfenced t) (inside : s <:+: t) : Unfenced s :=
  fun found => unfenced (found.trans inside)

/-- A text that holds no fence and does not complete one. -/
def Sealed (t : Text) : Prop := Unfenced t ∧ t.head? ≠ some (CodePoint.ofChar '`')

theorem Sealed.append (front : Sealed s) (back : Sealed t) : Sealed (s ++ t) := by
  refine ⟨unfenced_append front.1 back.1 (.inr back.2), ?_⟩
  cases s with
  | nil => exact back.2
  | cons c s => exact front.2

theorem unfenced_of_not_mem (absent : CodePoint.ofChar '`' ∉ t) : Unfenced t := by
  intro inside
  refine absent (inside.subset ?_)
  rw [fence_eq]
  exact List.mem_cons_self

/-- Text without backticks keeps what follows it apart from what precedes it. -/
theorem sealed_append (absent : CodePoint.ofChar '`' ∉ s) (filled : s ≠ []) (back : Unfenced t) :
    Sealed (s ++ t) := by
  refine ⟨unfenced_append (unfenced_of_not_mem absent) back
    (.inl fun last => absent (List.mem_of_getLast? last)), fun front => absent ?_⟩
  rw [List.head?_append_of_ne_nil _ filled] at front
  exact List.mem_of_mem_head? front

/-! ## Taking fences out -/

/-- Where a fence stands, it is taken out of a text, and perhaps more, but no quotes or
    backslashes. -/
structure Erasure (f : Text → Text) : Prop where
  nil : f [] = []
  keep : ∀ {c t}, ¬ fence <+: c :: t → f (c :: t) = c :: f t
  take : ∀ {t}, fence <+: t → ∃ front rest, t = front ++ rest ∧ front ≠ [] ∧
    CodePoint.ofChar '"' ∉ front ∧ CodePoint.ofChar '\\' ∉ front ∧ f t = f rest

theorem not_fence_of_ne (other : c ≠ CodePoint.ofChar '`') : ¬ fence <+: c :: t := by
  rw [fence_eq, List.cons_prefix_cons]
  exact fun starts => other starts.1.symm

theorem Erasure.other (erasure : Erasure f) (t : Text) (other : c ≠ CodePoint.ofChar '`') :
    f (c :: t) = c :: f t := erasure.keep (not_fence_of_ne other)

theorem Erasure.unfenced (erasure : Erasure f) (unfenced : Unfenced t) : f t = t := by
  induction t with
  | nil => exact erasure.nil
  | cons c t ih =>
    rw [erasure.keep fun starts => unfenced starts.isInfix,
      ih (unfenced.of_infix (List.suffix_cons c t).isInfix)]

theorem Erasure.length_le (erasure : Erasure f) (t : Text) : (f t).length ≤ t.length := by
  induction size : t.length using Nat.strong_induction_on generalizing t with
  | _ n ih =>
    subst size
    by_cases starts : fence <+: t
    · obtain ⟨front, rest, rfl, filled, _, _, taken⟩ := erasure.take starts
      have positive := List.length_pos_iff.2 filled
      rw [taken, List.length_append]
      exact (ih rest.length (by rw [List.length_append]; omega) rest rfl).trans
        (Nat.le_add_left _ _)
    · cases t with
      | nil => rw [erasure.nil]
      | cons c t =>
        rw [erasure.keep starts]
        exact Nat.succ_le_succ (ih _ (Nat.lt_succ_self _) t rfl)

/-- A text with a fence gets shorter. -/
theorem Erasure.length_lt (erasure : Erasure f) (fenced : fence <:+: t) :
    (f t).length < t.length := by
  induction t with
  | nil => exact absurd (List.infix_nil.1 fenced) (List.cons_ne_nil _ _)
  | cons c t ih =>
    by_cases starts : fence <+: c :: t
    · obtain ⟨front, rest, same, filled, _, _, taken⟩ := erasure.take starts
      have positive := List.length_pos_iff.2 filled
      have bound := erasure.length_le rest
      rw [taken, same, List.length_append]
      omega
    · rw [erasure.keep starts]
      exact Nat.succ_lt_succ (ih ((List.infix_cons_iff.1 fenced).resolve_left starts))

theorem Erasure.append (erasure : Erasure f) (absent : CodePoint.ofChar '`' ∉ s) (t : Text) :
    f (s ++ t) = s ++ f t := by
  induction s with
  | nil => rfl
  | cons c s ih =>
    rw [List.mem_cons, not_or] at absent
    rw [List.cons_append, erasure.other _ (Ne.symm absent.1), ih absent.2, List.cons_append]

theorem append_of_after? {head rest : Text} (found : Text.after? t head = some rest) :
    t = head ++ rest := by
  induction head generalizing t with
  | nil => cases t <;> cases found <;> rfl
  | cons d head ih =>
    cases t with
    | nil => cases found
    | cons c t =>
      rw [Text.after?] at found
      split at found
      next same => rw [same, ih found, List.cons_append]
      next => cases found

/-- Behind a fence only letters and blanks go with it. -/
theorem afterFence_split (t : Text) : ∃ eaten, t = eaten ++ afterFence t ∧
    CodePoint.ofChar '"' ∉ eaten ∧ CodePoint.ofChar '\\' ∉ eaten := by
  obtain ⟨spelled, split, letters⟩ : ∃ spelled,
      t = spelled ++ (Text.afterAnyCase? t "json").getD t ∧
        ∀ c ∈ spelled, ∃ d ∈ Text.ofString "json", CodePoint.sameLetter d c = true := by
    cases found : Text.afterAnyCase? t "json" with
    | none => exact ⟨[], rfl, nofun⟩
    | some rest =>
      obtain ⟨spelled, split, _, letters⟩ := Text.exists_of_afterAnyCase? found
      exact ⟨spelled, split, letters⟩
  have blanks := List.takeWhile_append_dropWhile (p := CodePoint.isBlank)
    (l := (Text.afterAnyCase? t "json").getD t)
  have absent : ∀ x : CodePoint, x.isBlank = false →
      ((Text.ofString "json").all fun d => !CodePoint.sameLetter d x) = true →
      x ∉ spelled ++ ((Text.afterAnyCase? t "json").getD t).takeWhile CodePoint.isBlank := by
    intro x visible noLetter member
    rcases List.mem_append.1 member with member | member
    · obtain ⟨d, listed, same⟩ := letters x member
      have differs := List.all_eq_true.1 noLetter d listed
      rw [same] at differs
      cases differs
    · rw [List.all_eq_true.1 List.all_takeWhile x member] at visible
      cases visible
  refine ⟨_, ?_, absent '"' (by decide) (by decide), absent '\\' (by decide) (by decide)⟩
  rw [List.append_assoc, afterFence, Text.stripLeft, blanks]
  exact split

theorem dropFencesFrom_skip (front t : Text) :
    dropFencesFrom front.length (front ++ t) = dropFencesFrom 0 t := by
  induction front with
  | nil => rfl
  | cons c front ih => exact ih

/-- A fence goes, and what may follow it. -/
theorem dropFencesFrom_first (front t : Text) (after : afterFence (front ++ t) = t) :
    dropFencesFrom 0 (fence ++ (front ++ t)) = dropFencesFrom 0 t := by
  have taken : Text.after? (fence ++ (front ++ t)) fence = some (front ++ t) := by
    cases front ++ t <;> rfl
  have width : (fence.drop 1 ++ (front ++ t)).length - t.length =
      (fence.drop 1 ++ front).length := by
    simp only [List.length_append]
    omega
  have front_eq : fence ++ (front ++ t) =
      CodePoint.ofChar '`' :: (fence.drop 1 ++ (front ++ t)) := rfl
  rw [front_eq] at taken ⊢
  rw [dropFencesFrom, taken]
  dsimp only
  rw [after, width, ← List.append_assoc, dropFencesFrom_skip]

theorem erasure_dropFences : Erasure (dropFencesFrom 0) where
  nil := rfl
  keep {c t} differs := by
    have here : Text.after? (c :: t) fence = none := by
      rw [Option.eq_none_iff_forall_not_mem]
      exact fun rest found => differs ⟨rest, (append_of_after? found).symm⟩
    rw [dropFencesFrom, here]
  take {t} starts := by
    obtain ⟨rest, rfl⟩ := starts
    obtain ⟨eaten, split, noQuote, noSlash⟩ := afterFence_split rest
    have dropped := dropFencesFrom_first eaten (afterFence rest) (by rw [← split])
    rw [← split] at dropped
    refine ⟨fence ++ eaten, afterFence rest, by rw [List.append_assoc, ← split],
      List.cons_ne_nil _ _, ?_, ?_, dropped⟩
    all_goals
      rw [List.mem_append, not_or]
      refine ⟨by decide, ?_⟩
      assumption

theorem erasure_replaceAll : Erasure (Text.replaceAll · fence []) where
  nil := rfl
  keep {c t} differs := by
    rw [← Text.startsWith_iff, Bool.not_eq_true] at differs
    simp only [Text.replaceAll, Text.replaceAllFrom, differs, Bool.false_eq_true, if_false]
  take {t} starts := by
    obtain ⟨rest, rfl⟩ := starts
    have here : Text.startsWith (fence ++ rest) fence = true :=
      (Text.startsWith_iff _ _).2 (List.prefix_append _ _)
    refine ⟨fence, rest, rfl, List.cons_ne_nil _ _, by decide, by decide, ?_⟩
    rw [fence_eq, List.cons_append] at here ⊢
    simp only [Text.replaceAll, Text.replaceAllFrom, here, if_true]
    rfl

/-- Up to the fence at its end, a text stays as it is. -/
theorem dropFencesFrom_last (unfenced : Unfenced (t ++ fence.drop 1)) :
    dropFencesFrom 0 (t ++ fence) = t := by
  induction t with
  | nil => rfl
  | cons c t ih =>
    have differs : ¬ fence <+: c :: (t ++ fence) := by
      intro starts
      refine unfenced (List.IsPrefix.isInfix ?_)
      refine List.prefix_of_prefix_length_le starts ⟨[CodePoint.ofChar '`'], ?_⟩ ?_
      · simp [fence_eq]
      · simp [fence_eq]
    rw [List.cons_append, erasure_dropFences.keep differs,
      ih (unfenced.of_infix (List.suffix_cons _ _).isInfix)]

theorem replaceAll_unfenced (unfenced : Unfenced t) : Text.replaceAll t fence [] = t :=
  erasure_replaceAll.unfenced unfenced

/-- What is left of a text without its fences, blanks at its ends included. -/
def unfence (t : Text) : Text := Text.replaceAll (dropFencesFrom 0 t) fence []

theorem withoutFences_eq_strip (t : Text) : withoutFences t = Text.strip (unfence t) := rfl

theorem unfence_unfenced (unfenced : Unfenced t) : unfence t = t := by
  rw [unfence, erasure_dropFences.unfenced unfenced, erasure_replaceAll.unfenced unfenced]

theorem length_unfence_lt (fenced : fence <:+: t) : (unfence t).length < t.length :=
  Nat.lt_of_le_of_lt (erasure_replaceAll.length_le _) (erasure_dropFences.length_lt fenced)

/-- Text without backticks around a text stays as it is. -/
theorem unfence_append (absent : CodePoint.ofChar '`' ∉ s) (t : Text) :
    unfence (s ++ t) = s ++ unfence t := by
  rw [unfence, erasure_dropFences.append absent, erasure_replaceAll.append absent, unfence]

end Arabize.Answer
