import Arabize.Markup.TextSpan

/-! # Where the spans of a document stand

`cut` reads a document once, from the left.  What it finds can be said without it: a span
stands between a `>` that may open one and the next `<`, holds nothing that breaks it, and
no run is open at its `>` already (`mem_cut_iff`).  The pieces make up the document, each
at the place where it is said to be.
-/

namespace Arabize.Markup

variable {rule : SpanRule}

/-! ## Open runs -/

/-- Whether nothing in a text ends the run that it stands in. -/
def Unbroken (rule : SpanRule) (t : Text) : Prop :=
  ∀ c ∈ t, c ≠ CodePoint.ofChar '<' ∧ rule.breaks c = false

/-- Whether some `>` of a text opens a run that is still open at its end. -/
def Opens (rule : SpanRule) (seen : Text) : Prop :=
  ∃ before run, seen = before ++ CodePoint.ofChar '>' :: run ∧
    rule.opens before.getLast? = true ∧ Unbroken rule run

/-- The run that is open at the end of a text: its `>` is the first one that opens it. -/
def OpenRun (rule : SpanRule) (seen : Text) (start : Nat) (run : Text) : Prop :=
  ∃ before, seen = before ++ CodePoint.ofChar '>' :: run ∧ start = before.length + 1 ∧
    rule.opens before.getLast? = true ∧ Unbroken rule run ∧ ¬ Opens rule before

/-- A span of a document: a run that is not empty and that a `<` ends. -/
def IsSpan (rule : SpanRule) (content : Text) (start : Nat) (run : Text) : Prop :=
  run ≠ [] ∧ ∃ seen after, content = seen ++ CodePoint.ofChar '<' :: after ∧
    OpenRun rule seen start run

theorem unbroken_concat {t : Text} {c : CodePoint} :
    Unbroken rule (t ++ [c]) ↔
      Unbroken rule t ∧ c ≠ CodePoint.ofChar '<' ∧ rule.breaks c = false := by
  simp only [Unbroken, List.forall_mem_append, List.forall_mem_singleton]

theorem OpenRun.opens {seen run : Text} {start : Nat} (opened : OpenRun rule seen start run) :
    Opens rule seen := by
  obtain ⟨before, rfl, _, mayOpen, unbroken, _⟩ := opened
  exact ⟨before, run, rfl, mayOpen, unbroken⟩

theorem OpenRun.length {seen run : Text} {start : Nat} (opened : OpenRun rule seen start run) :
    start + run.length = seen.length := by
  obtain ⟨before, rfl, rfl, _⟩ := opened
  simp only [List.length_append, List.length_cons]
  omega

/-- A `>` that lies in an open run is not the first one to open it. -/
theorem not_opens_of_append {before between run other : Text}
    (first : ¬ Opens rule (before ++ between)) (mayOpen : rule.opens before.getLast? = true)
    (unbroken : Unbroken rule run)
    (same : CodePoint.ofChar '>' :: run = between ++ CodePoint.ofChar '>' :: other) :
    between = [] := by
  cases between with
  | nil => rfl
  | cons c between =>
    rw [List.cons_append, List.cons.injEq] at same
    obtain ⟨rfl, rfl⟩ := same
    -- The first `>` opens a run, and nothing up to the second one ends it.
    refine absurd ⟨before, between, rfl, mayOpen, fun c member => ?_⟩ first
    exact unbroken c (List.mem_append_left _ member)

theorem OpenRun.unique {seen run other : Text} {start place : Nat}
    (opened : OpenRun rule seen start run) (openedToo : OpenRun rule seen place other) :
    start = place ∧ run = other := by
  obtain ⟨before, rfl, rfl, mayOpen, unbroken, first⟩ := opened
  obtain ⟨beforeToo, same, rfl, mayOpenToo, unbrokenToo, firstToo⟩ := openedToo
  -- One of the two stands first, and what lies between them is open already.
  rcases List.append_eq_append_iff.1 same with ⟨between, rfl, shifted⟩ | ⟨between, rfl, shifted⟩
  · obtain rfl := not_opens_of_append firstToo mayOpen unbroken shifted
    simpa using shifted
  · obtain rfl := not_opens_of_append first mayOpenToo unbrokenToo shifted
    simpa [eq_comm] using shifted

theorem not_opens_nil : ¬ Opens rule [] := by
  rintro ⟨before, run, empty, _⟩
  simp at empty

/-- One more code point opens a run, or leaves open what was. -/
theorem opens_concat {seen : Text} {c : CodePoint} :
    Opens rule (seen ++ [c]) ↔
      (c = CodePoint.ofChar '>' ∧ rule.opens seen.getLast? = true) ∨
        (Opens rule seen ∧ c ≠ CodePoint.ofChar '<' ∧ rule.breaks c = false) := by
  constructor
  · rintro ⟨before, run, same, mayOpen, unbroken⟩
    -- The code point is the `>` itself, or the last one of the run behind it.
    rcases List.eq_nil_or_concat run with rfl | ⟨front, last, rfl⟩
    · rw [List.append_inj_left' same rfl]
      exact .inl ⟨by simpa using List.append_inj_right' same rfl, mayOpen⟩
    · rw [List.concat_eq_append] at same unbroken
      rw [← List.cons_append, ← List.append_assoc] at same
      obtain ⟨rfl, sameLast⟩ := List.append_inj' same rfl
      rw [List.singleton_inj] at sameLast
      subst sameLast
      obtain ⟨unbrokenFront, notEnd⟩ := unbroken_concat.1 unbroken
      exact .inr ⟨⟨before, front, rfl, mayOpen, unbrokenFront⟩, notEnd⟩
  · rintro (⟨rfl, mayOpen⟩ | ⟨⟨before, run, rfl, mayOpen, unbroken⟩, notEnd⟩)
    · exact ⟨seen, [], rfl, mayOpen, by simp [Unbroken]⟩
    · exact ⟨before, run ++ [c], by simp, mayOpen, unbroken_concat.2 ⟨unbroken, notEnd⟩⟩

theorem not_opens_end (seen : Text) : ¬ Opens rule (seen ++ [CodePoint.ofChar '<']) := by
  intro opens
  rcases opens_concat.1 opens with ⟨absent, _⟩ | ⟨_, notEnd, _⟩
  · exact absurd absent (by decide)
  · exact notEnd rfl

/-- What breaks a run is no `>`, so that no other run begins with it. -/
theorem not_opens_breaks (intact : rule.breaks (CodePoint.ofChar '>') = false) {c : CodePoint}
    (broken : rule.breaks c = true) (seen : Text) : ¬ Opens rule (seen ++ [c]) := by
  intro opens
  rcases opens_concat.1 opens with ⟨rfl, _⟩ | ⟨_, _, kept⟩
  · rw [intact] at broken
    cases broken
  · rw [kept] at broken
    cases broken

theorem openRun_concat {seen run : Text} {start : Nat} (opened : OpenRun rule seen start run)
    {c : CodePoint} (notEnd : c ≠ CodePoint.ofChar '<') (intact : rule.breaks c = false) :
    OpenRun rule (seen ++ [c]) start (run ++ [c]) := by
  obtain ⟨before, rfl, rfl, mayOpen, unbroken, first⟩ := opened
  exact ⟨before, by simp, rfl, mayOpen, unbroken_concat.2 ⟨unbroken, notEnd, intact⟩, first⟩

theorem openRun_here {seen : Text} (closed : ¬ Opens rule seen)
    (mayOpen : rule.opens seen.getLast? = true) :
    OpenRun rule (seen ++ [CodePoint.ofChar '>']) (seen.length + 1) [] :=
  ⟨seen, rfl, rfl, mayOpen, by simp [Unbroken], closed⟩

/-! ## The cut -/

/-- What the cut knows of the part it has passed: which run is open at its end. -/
def Knows (rule : SpanRule) (seen : Text) : Option Run → Prop
  | none => ¬ Opens rule seen
  | some run => OpenRun rule seen run.start run.reversed.reverse

/-- The `<` of a span that begins behind a part, or the one that ends its open run. -/
theorem isSpan_iff_here {seen t run : Text} {start : Nat} {c : CodePoint} :
    IsSpan rule (seen ++ c :: t) start run ∧ start + run.length = seen.length ↔
      c = CodePoint.ofChar '<' ∧ run ≠ [] ∧ OpenRun rule seen start run := by
  constructor
  · rintro ⟨⟨nonempty, front, after, same, opened⟩, place⟩
    rw [opened.length] at place
    obtain ⟨rfl, behind⟩ := List.append_inj same place.symm
    rw [List.cons.injEq] at behind
    exact ⟨behind.1, nonempty, opened⟩
  · rintro ⟨rfl, nonempty, opened⟩
    exact ⟨⟨nonempty, seen, t, rfl, opened⟩, opened.length⟩

/-- The spans whose `<` stands behind a part. -/
theorem isSpan_from_iff {seen t run : Text} {start : Nat} {c : CodePoint} :
    IsSpan rule (seen ++ c :: t) start run ∧ seen.length ≤ start + run.length ↔
      (c = CodePoint.ofChar '<' ∧ run ≠ [] ∧ OpenRun rule seen start run) ∨
        IsSpan rule ((seen ++ [c]) ++ t) start run ∧
          (seen ++ [c]).length ≤ start + run.length := by
  rw [← isSpan_iff_here (t := t), List.append_assoc, List.singleton_append, ← and_or_left,
    List.length_append, List.length_singleton]
  refine and_congr_right fun _ => ?_
  omega

/-- The `<` of a span stands in the document. -/
theorem IsSpan.length_lt {content run : Text} {start : Nat}
    (isSpan : IsSpan rule content start run) : start + run.length < content.length := by
  obtain ⟨_, front, after, rfl, opened⟩ := isSpan
  rw [opened.length]
  simp only [List.length_append, List.length_cons]
  omega

theorem span_eq_close_iff {seen run : Text} {start : Nat} {r : Run}
    (known : Knows rule seen (some r)) :
    Piece.span start run = r.close ↔ run ≠ [] ∧ OpenRun rule seen start run := by
  have same : OpenRun rule seen start run ↔ start = r.start ∧ run = r.reversed.reverse :=
    ⟨fun opened => opened.unique known, fun ⟨here, this⟩ => here ▸ this ▸ known⟩
  rw [same, Run.close]
  split
  next empty => simp [empty, and_comm]
  next nonempty =>
    rw [Piece.span.injEq]
    refine ⟨fun equal => ⟨?_, equal⟩, fun equal => equal.2⟩
    rw [equal.2]
    simpa using nonempty

/-- The cut of a rest, given what it knows of the part before, finds the spans that end in
    the rest. -/
theorem mem_cutFrom_iff (intact : rule.breaks (CodePoint.ofChar '>') = false) {seen : Text}
    {open? : Option Run} (known : Knows rule seen open?) (t : Text) (start : Nat) (run : Text) :
    Piece.span start run ∈ cutFrom rule seen.length open? seen.getLast? t ↔
      IsSpan rule (seen ++ t) start run ∧ seen.length ≤ start + run.length := by
  -- On the rest, for every part before it: each step keeps what the cut knows.
  induction t generalizing seen open? with
  | nil =>
    have outside : ¬ (IsSpan rule (seen ++ []) start run ∧ seen.length ≤ start + run.length) := by
      rintro ⟨isSpan, late⟩
      have before := isSpan.length_lt
      rw [List.append_nil] at before
      omega
    exact iff_of_false (by cases open? <;> simp [cutFrom]) outside
  | cons c t ih =>
    have next : ∀ {after? : Option Run}, Knows rule (seen ++ [c]) after? →
        (Piece.span start run ∈ cutFrom rule (seen.length + 1) after? (some c) t ↔
          IsSpan rule ((seen ++ [c]) ++ t) start run ∧
            (seen ++ [c]).length ≤ start + run.length) := by
      intro after? knows
      rw [← ih knows, List.getLast?_concat, List.length_append, List.length_singleton]
    rw [isSpan_from_iff]
    cases open? with
    | none =>
      -- No run is open, so none ends here, and only a `>` opens one.
      have never : ¬ OpenRun rule seen start run := fun opened => known opened.opens
      simp only [cutFrom, List.mem_cons, reduceCtorEq, false_or, never, and_false]
      apply next
      by_cases opened : c = CodePoint.ofChar '>' ∧ rule.opens seen.getLast? = true
      · obtain ⟨rfl, mayOpen⟩ := opened
        rw [if_pos ⟨rfl, mayOpen⟩]
        exact openRun_here known mayOpen
      · rw [if_neg opened]
        exact fun opens => (opens_concat.1 opens).elim opened fun before => known before.1
    | some r =>
      simp only [cutFrom]
      split
      next isEnd =>
        -- The open run ends here.  It is a span unless it is empty.
        have closed : Knows rule (seen ++ [c]) none := by
          rw [isEnd]
          exact not_opens_end seen
        rw [List.mem_cons, List.mem_cons, span_eq_close_iff known, next closed]
        simp only [isEnd, reduceCtorEq, false_or, true_and]
      next notEnd =>
        simp only [notEnd, false_and, false_or]
        split
        next broken =>
          have closed : Knows rule (seen ++ [c]) none := not_opens_breaks intact broken seen
          rw [List.mem_cons, next closed]
          simp only [reduceCtorEq, false_or]
        next kept =>
          apply next
          have longer := openRun_concat known notEnd (Bool.eq_false_iff.2 kept)
          rwa [← List.reverse_cons] at longer

/-- The cut of a document finds exactly its spans. -/
theorem mem_cut_iff (intact : rule.breaks (CodePoint.ofChar '>') = false) (content : Text)
    (start : Nat) (run : Text) :
    Piece.span start run ∈ cut rule content ↔ IsSpan rule content start run := by
  have known : Knows rule [] none := not_opens_nil
  have found := mem_cutFrom_iff intact known content start run
  rw [cut]
  simpa using found

/-! ## The pieces -/

/-- The code points of the open run, if there is one. -/
def openText : Option Run → Text
  | none => []
  | some run => run.reversed.reverse

theorem Run.close_text (r : Run) : r.close.text = r.reversed.reverse := by
  rw [close]
  split
  next empty => simp [empty, Piece.text]
  next => rfl

theorem cutFrom_text (n : Nat) (open? : Option Run) (before : Option CodePoint) (t : Text) :
    (cutFrom rule n open? before t).flatMap Piece.text = openText open? ++ t := by
  fun_induction cutFrom rule n open? before t with
  | case1 => rfl
  | case2 => rfl
  | case3 n before c t opened ih =>
    have empty : openText opened = [] := by
      simp only [opened]
      split <;> rfl
    rw [List.flatMap_cons, ih, empty]
    rfl
  | case4 n run before t ih =>
    rw [List.flatMap_cons, List.flatMap_cons, ih, Run.close_text]
    rfl
  | case5 n run before c t _ _ ih =>
    rw [List.flatMap_cons, ih]
    simp [Piece.text, openText]
  | case6 n run before c t _ _ ih =>
    rw [ih]
    simp [openText]

/-- The pieces of a document make it up. -/
theorem cut_text (rule : SpanRule) (content : Text) :
    (cut rule content).flatMap Piece.text = content :=
  cutFrom_text 0 none none content

/-- Whether the spans of a list stand where they are said to, and each is ended by a `<`. -/
def Placed : Nat → List Piece → Prop
  | _, [] => True
  | n, .other t :: ps => Placed (n + t.length) ps
  | n, .span start t :: ps =>
    start = n ∧ CodePoint.ofChar '<' ∉ t ∧
      (∃ rest, ps = .other [CodePoint.ofChar '<'] :: rest) ∧ Placed (n + t.length) ps

/-- What an open run says of itself. -/
def Fits (n : Nat) : Option Run → Prop
  | none => True
  | some run => run.start + run.reversed.length = n ∧ CodePoint.ofChar '<' ∉ run.reversed

theorem cutFrom_placed (n : Nat) (open? : Option Run) (before : Option CodePoint) (t : Text)
    (fits : Fits n open?) :
    Placed (n - (openText open?).length) (cutFrom rule n open? before t) := by
  -- The start of the open run is handed on from step to step; `Fits` says that it is right.
  fun_induction cutFrom rule n open? before t with
  | case1 => trivial
  | case2 => trivial
  | case3 n before c t opened ih =>
    have start : Fits (n + 1) opened ∧ openText opened = [] := by
      simp only [opened]
      split
      · exact ⟨⟨rfl, List.not_mem_nil⟩, rfl⟩
      · exact ⟨trivial, rfl⟩
    have behind := ih start.1
    rw [start.2] at behind
    exact behind
  | case4 n run before t ih =>
    obtain ⟨place, absent⟩ := fits
    have width : (openText (some run)).length = run.reversed.length := List.length_reverse
    have behind : Placed (n + 1) (cutFrom rule (n + 1) none (some (CodePoint.ofChar '<')) t) :=
      ih trivial
    rw [width, Run.close]
    split
    next empty =>
      rw [empty]
      exact behind
    next =>
      refine ⟨by omega, by simpa using absent, ⟨_, rfl⟩, ?_⟩
      rw [List.length_reverse, Nat.sub_add_cancel (by omega)]
      exact behind
  | case5 n run before c t _ _ ih =>
    obtain ⟨place, _⟩ := fits
    have behind : Placed (n + 1) (cutFrom rule (n + 1) none (some c) t) := ih trivial
    rw [openText, List.length_reverse, Placed, List.length_reverse, List.length_cons,
      show n - run.reversed.length + (run.reversed.length + 1) = n + 1 by omega]
    exact behind
  | case6 n run before c t notEnd _ ih =>
    obtain ⟨place, absent⟩ := fits
    have longer : Fits (n + 1) (some ⟨run.start, c :: run.reversed⟩) := by
      refine ⟨?_, ?_⟩
      · change run.start + (run.reversed.length + 1) = n + 1
        omega
      · rw [List.mem_cons, not_or]
        exact ⟨fun same => notEnd same.symm, absent⟩
    have behind := ih longer
    rw [openText, List.length_reverse] at behind ⊢
    rw [List.length_cons, Nat.add_sub_add_right] at behind
    exact behind

theorem cut_placed (rule : SpanRule) (content : Text) : Placed 0 (cut rule content) :=
  cutFrom_placed 0 none none content trivial

end Arabize.Markup
