import Arabize.Text.Blank

/-! # Blanks and words of a text

A text that is not blank is its leading blanks, its core and its trailing blanks
(`eq_blanks_append_strip`).

A text is cut into words at its runs of blanks.  What stands next to a text without a blank between
them joins its first or its last word (`splitBlanks_append_left`, `splitBlanksFrom_append_right`),
and a blank keeps two texts apart (`splitBlanksFrom_append_blank`), so that the words of a line are
those of the texts that were put together (`mem_splitBlanks_intercalate`).
-/

namespace Arabize.Text

/-! ## The blanks around a text -/

theorem stripRight_append {s t : Text} (core : stripRight t ≠ []) :
    stripRight (s ++ t) = s ++ stripRight t := by
  simp only [stripRight, stripLeft, ne_eq, List.reverse_eq_nil_iff] at core ⊢
  rw [List.reverse_append, List.dropWhile_append, if_neg (by simpa using core),
    List.reverse_append, List.reverse_reverse]

theorem stripRight_initial (t : Text) : stripRight t <+: t := by
  rw [stripRight, ← List.reverse_suffix, List.reverse_reverse]
  exact List.dropWhile_suffix _

/-- A text that is not blank is its core between its blanks. -/
theorem eq_blanks_append_strip {t : Text} (core : strip t ≠ []) :
    t = leadingBlanks t ++ strip t ++ trailingBlanks t := by
  have parts : leadingBlanks t ++ stripLeft t = t := List.takeWhile_append_dropWhile
  have front : stripRight t = leadingBlanks t ++ strip t := by
    rw [strip, ← stripRight_append core, parts]
  rw [trailingBlanks, ← front]
  exact (List.prefix_iff_eq_append.1 (stripRight_initial t)).symm

/-! ## Words -/

variable {s t u piece : Text} {b : Bool}

theorem splitBlanksFrom_ne_nil (b : Bool) (t : Text) : splitBlanksFrom b t ≠ [] := by
  induction t generalizing b with
  | nil => exact List.cons_ne_nil _ _
  | cons c t ih =>
    rw [splitBlanksFrom]
    split
    · split
      · exact ih true
      · exact List.cons_ne_nil _ _
    · split <;> exact List.cons_ne_nil _ _

/-- The first word of a text and those behind it. -/
theorem exists_splitBlanksFrom (b : Bool) (t : Text) :
    ∃ first rest, splitBlanksFrom b t = first :: rest :=
  List.exists_cons_of_ne_nil (splitBlanksFrom_ne_nil b t)

theorem splitBlanksFrom_blank {c : CodePoint} (blank : c.isBlank = true) (b : Bool) (t : Text) :
    splitBlanksFrom b (c :: t) =
      if b then splitBlanksFrom true t else [] :: splitBlanksFrom true t := by
  rw [splitBlanksFrom, if_pos blank]

/-- A code point that is no blank joins the first word behind it. -/
theorem splitBlanksFrom_visible {c : CodePoint} (visible : c.isBlank = false) (b : Bool)
    {first : Text} {rest : List Text} (words : splitBlanksFrom false t = first :: rest) :
    splitBlanksFrom b (c :: t) = (c :: first) :: rest := by
  rw [splitBlanksFrom, if_neg (by simp [visible]), words]

/-- A word is made of the code points of its text that are no blanks. -/
theorem word_of_mem_splitBlanksFrom (member : piece ∈ splitBlanksFrom b t) :
    piece ⊆ t ∧ ∀ c ∈ piece, c.isBlank = false := by
  induction t generalizing b piece with
  | nil => simp [List.mem_singleton.1 member]
  | cons c t ih =>
    cases blank : c.isBlank with
    | true =>
      rw [splitBlanksFrom_blank blank] at member
      have later : piece = [] ∨ piece ∈ splitBlanksFrom true t := by
        cases b with
        | true => exact .inr member
        | false => exact List.mem_cons.1 member
      rcases later with rfl | later
      · simp
      · exact (ih later).imp_left fun within => List.subset_cons_of_subset c within
    | false =>
      obtain ⟨first, rest, words⟩ := exists_splitBlanksFrom false t
      rw [splitBlanksFrom_visible blank b words] at member
      rcases List.mem_cons.1 member with rfl | later
      · obtain ⟨within, visible⟩ := ih (b := false) (by rw [words]; exact List.mem_cons_self)
        exact ⟨List.cons_subset_cons c within, List.forall_mem_cons.2 ⟨blank, visible⟩⟩
      · exact (ih (b := false) (by rw [words]; exact List.mem_cons_of_mem _ later)).imp_left
          fun within => List.subset_cons_of_subset c within

/-! ## Texts side by side -/

/-- A beginning without blanks joins the first word. -/
theorem splitBlanks_append_left (visible : ∀ c ∈ s, c.isBlank = false) {first : Text}
    {rest : List Text} (words : splitBlanks t = first :: rest) :
    splitBlanks (s ++ t) = (s ++ first) :: rest := by
  induction s with
  | nil => exact words
  | cons c s ih =>
    obtain ⟨here, behind⟩ := List.forall_mem_cons.1 visible
    exact splitBlanksFrom_visible here false (ih behind)

/-- A text without blanks is one word. -/
theorem splitBlanks_of_visible (visible : ∀ c ∈ s, c.isBlank = false) : splitBlanks s = [s] := by
  simpa using splitBlanks_append_left (t := []) visible rfl

/-- An end without blanks joins the last word. -/
theorem splitBlanksFrom_append_right (visible : ∀ c ∈ u, c.isBlank = false) (b : Bool)
    (t : Text) : ∃ front last, splitBlanksFrom b t = front ++ [last] ∧
      splitBlanksFrom b (t ++ u) = front ++ [last ++ u] := by
  induction t generalizing b with
  | nil =>
    refine ⟨[], [], rfl, ?_⟩
    cases u with
    | nil => rfl
    | cons c u =>
      obtain ⟨here, behind⟩ := List.forall_mem_cons.1 visible
      exact splitBlanksFrom_visible here b (splitBlanks_of_visible behind)
  | cons c t ih =>
    cases blank : c.isBlank with
    | true =>
      obtain ⟨front, last, before, after⟩ := ih true
      rw [List.cons_append, splitBlanksFrom_blank blank, splitBlanksFrom_blank blank, before, after]
      cases b with
      | true => exact ⟨front, last, rfl, rfl⟩
      | false => exact ⟨[] :: front, last, rfl, rfl⟩
    | false =>
      obtain ⟨front, last, before, after⟩ := ih false
      cases front with
      | nil =>
        exact ⟨[], c :: last, splitBlanksFrom_visible blank b before,
          splitBlanksFrom_visible blank b after⟩
      | cons first front =>
        exact ⟨(c :: first) :: front, last, splitBlanksFrom_visible blank b before,
          splitBlanksFrom_visible blank b after⟩

/-- Whatever word stands between texts without blanks goes on with what is inside. -/
theorem exists_of_mem_splitBlanks_between (front : ∀ c ∈ s, c.isBlank = false)
    (back : ∀ c ∈ u, c.isBlank = false) (member : piece ∈ splitBlanks (s ++ t ++ u)) :
    ∃ inner ∈ splitBlanks t, inner ⊆ piece := by
  obtain ⟨words, last, before, after⟩ := splitBlanksFrom_append_right back false (s ++ t)
  obtain ⟨first, rest, inside⟩ := exists_splitBlanksFrom false t
  have joined : splitBlanks (s ++ t) = (s ++ first) :: rest := splitBlanks_append_left front inside
  -- A word of the longer text is one of `s ++ t`, or the last of these with the end.
  have grown : ∃ word ∈ splitBlanks (s ++ t), word ⊆ piece := by
    rw [splitBlanks, after] at member
    rw [splitBlanks, before]
    rcases List.mem_append.1 member with early | late
    · exact ⟨piece, List.mem_append_left _ early, List.Subset.refl _⟩
    · rw [List.mem_singleton.1 late]
      exact ⟨last, by simp, List.subset_append_left _ _⟩
  obtain ⟨word, isWord, held⟩ := grown
  rw [joined] at isWord
  rw [splitBlanks, inside]
  rcases List.mem_cons.1 isWord with rfl | later
  · exact ⟨first, List.mem_cons_self, fun c here => held (List.mem_append_right _ here)⟩
  · exact ⟨word, List.mem_cons_of_mem _ later, held⟩

/-! ## Texts apart -/

/-- Whether no blank stands at the end of a text. -/
def EndsVisible (t : Text) : Prop := ∀ c, t.getLast? = some c → c.isBlank = false

theorem EndsVisible.tail {c : CodePoint} (visible : EndsVisible (c :: t)) : EndsVisible t := by
  intro e last
  apply visible e
  rw [List.getLast?_cons, last, Option.getD_some]

theorem endsVisible_of_not_blank (visible : ∀ c ∈ t, c.isBlank = false) : EndsVisible t :=
  fun c last => visible c (List.mem_of_getLast? last)

theorem EndsVisible.append (visible : EndsVisible s) (behind : EndsVisible t) :
    EndsVisible (s ++ t) := by
  intro c last
  rw [List.getLast?_append] at last
  rcases Option.or_eq_some_iff.1 last with back | ⟨_, front⟩
  · exact behind c back
  · exact visible c front

theorem EndsVisible.behind (visible : EndsVisible t) (nonempty : t ≠ []) (s : Text) :
    EndsVisible (s ++ t) := by
  intro c last
  rw [List.getLast?_append] at last
  rcases Option.or_eq_some_iff.1 last with back | ⟨absent, _⟩
  · exact visible c back
  · exact absurd (List.getLast?_eq_none_iff.1 absent) nonempty

/-- A blank keeps apart what stands on its two sides.  Behind a blank the text before it must not
    be empty, or the two blanks are one run. -/
theorem splitBlanksFrom_append_blank {c : CodePoint} (blank : c.isBlank = true)
    (visible : EndsVisible t) (rest : Text) (b : Bool) (filled : b = true → t ≠ []) :
    splitBlanksFrom b (t ++ c :: rest) = splitBlanksFrom b t ++ splitBlanksFrom true rest := by
  induction t generalizing b with
  | nil =>
    cases b with
    | true => exact absurd rfl (filled rfl)
    | false => rw [List.nil_append, splitBlanksFrom_blank blank]; rfl
  | cons e t ih =>
    cases here : e.isBlank with
    | true =>
      have more : t ≠ [] := by
        rintro rfl
        rw [visible e rfl] at here
        cases here
      rw [List.cons_append, splitBlanksFrom_blank here, splitBlanksFrom_blank here,
        ih visible.tail true fun _ => more]
      cases b <;> rfl
    | false =>
      obtain ⟨first, words, split⟩ := exists_splitBlanksFrom false t
      have behind := ih visible.tail false nofun
      rw [split] at behind
      rw [List.cons_append, splitBlanksFrom_visible here b split,
        splitBlanksFrom_visible here b behind]
      rfl

theorem mem_splitBlanks_of_mem (member : piece ∈ splitBlanksFrom true t) :
    piece ∈ splitBlanks t := by
  cases t with
  | nil => exact member
  | cons c t =>
    cases blank : c.isBlank with
    | true =>
      rw [splitBlanksFrom_blank blank] at member
      rw [splitBlanks, splitBlanksFrom_blank blank]
      exact List.mem_cons_of_mem _ member
    | false =>
      obtain ⟨first, rest, words⟩ := exists_splitBlanksFrom false t
      rw [splitBlanksFrom_visible blank true words] at member
      rwa [splitBlanks, splitBlanksFrom_visible blank false words]

/-- The words of a line are words of the texts that it was made of. -/
theorem mem_splitBlanks_intercalate {sep : CodePoint} (blank : sep.isBlank = true)
    {texts : List Text} (filled : texts ≠ []) (visible : ∀ t ∈ texts, EndsVisible t)
    (member : piece ∈ splitBlanks (intercalate [sep] texts)) :
    ∃ t ∈ texts, piece ∈ splitBlanks t := by
  fun_induction intercalate [sep] texts with
  | case1 => exact absurd rfl filled
  | case2 t => exact ⟨t, List.mem_cons_self, member⟩
  | case3 t next rest ih =>
    obtain ⟨here, behind⟩ := List.forall_mem_cons.1 visible
    rw [List.append_assoc, List.singleton_append, splitBlanks,
      splitBlanksFrom_append_blank blank here _ false nofun] at member
    rcases List.mem_append.1 member with early | late
    · exact ⟨t, List.mem_cons_self, early⟩
    · obtain ⟨u, isText, held⟩ :=
        ih (List.cons_ne_nil _ _) behind (mem_splitBlanks_of_mem late)
      exact ⟨u, List.mem_cons_of_mem _ isText, held⟩

theorem subset_intercalate (sep : Text) {texts : List Text} (member : t ∈ texts) :
    t ⊆ intercalate sep texts := by
  fun_induction intercalate sep texts with
  | case1 => cases member
  | case2 u => rw [List.mem_singleton.1 member]; exact List.Subset.refl u
  | case3 u next rest ih =>
    rcases List.mem_cons.1 member with rfl | later
    · exact fun c here => List.mem_append_left _ (List.mem_append_left _ here)
    · exact fun c here => List.mem_append_right _ (ih later here)

/-! ## Texts without blanks around them -/

theorem length_stripLeft_le (t : Text) : (stripLeft t).length ≤ t.length :=
  (List.dropWhile_suffix _).length_le

theorem stripLeft_of_strip (tight : strip t = t) : stripLeft t = t := by
  apply (List.dropWhile_suffix _).eq_of_length
  have shorter := (stripRight_initial (stripLeft t)).length_le
  have whole := congrArg List.length tight
  have longer := length_stripLeft_le t
  simp only [strip, stripLeft] at whole shorter longer
  omega

theorem head_of_stripLeft {c : CodePoint} (tight : stripLeft (c :: t) = c :: t) :
    c.isBlank = false := by
  have first := List.head?_dropWhile_not CodePoint.isBlank (c :: t)
  rw [show (c :: t).dropWhile CodePoint.isBlank = c :: t from tight] at first
  exact first

theorem endsVisible_of_strip (tight : strip t = t) : EndsVisible t := by
  have back : stripLeft t.reverse = t.reverse := by
    rw [strip, stripLeft_of_strip tight, stripRight] at tight
    simpa using congrArg List.reverse tight
  intro c last
  obtain ⟨front, rfl⟩ := List.getLast?_eq_some_iff.1 last
  rw [List.reverse_append, List.reverse_singleton, List.singleton_append] at back
  exact head_of_stripLeft back

/-- Where no blank stands at the end of a text, no word is empty but the first one, and that one
    only if a blank stands in front of it. -/
theorem nil_not_mem_splitBlanksFrom (visible : EndsVisible t) :
    [] ∉ (splitBlanksFrom false t).tail ∧ (t ≠ [] → [] ∉ splitBlanksFrom true t) := by
  induction t with
  | nil => simp [splitBlanksFrom]
  | cons c t ih =>
    obtain ⟨tail, behind⟩ := ih visible.tail
    cases blank : c.isBlank with
    | true =>
      have more : t ≠ [] := by
        rintro rfl
        rw [visible c rfl] at blank
        cases blank
      simpa [splitBlanksFrom_blank blank] using behind more
    | false =>
      obtain ⟨first, rest, words⟩ := exists_splitBlanksFrom false t
      rw [words, List.tail_cons] at tail
      simpa [splitBlanksFrom_visible blank _ words] using tail

/-- No word of a text without blanks around it is empty. -/
theorem nil_not_mem_splitBlanks (filled : t ≠ []) (tight : strip t = t) : [] ∉ splitBlanks t := by
  obtain ⟨c, t, rfl⟩ := List.exists_cons_of_ne_nil filled
  obtain ⟨first, rest, words⟩ := exists_splitBlanksFrom false t
  have visible := head_of_stripLeft (stripLeft_of_strip tight)
  have tail := (nil_not_mem_splitBlanksFrom (endsVisible_of_strip tight)).1
  rw [splitBlanksFrom_visible visible false words, List.tail_cons] at tail
  simpa [splitBlanks, splitBlanksFrom_visible visible false words] using tail

/-- A blank at the end leaves an empty piece there. -/
theorem getLast?_splitBlanksFrom {c : CodePoint} (blank : c.isBlank = true)
    (last : t.getLast? = some c) (b : Bool) :
    ((splitBlanksFrom b t).drop (if b then 0 else 1)).getLast? = some [] := by
  induction t generalizing b with
  | nil => cases last
  | cons d t ih =>
    cases t with
    | nil =>
      obtain rfl : d = c := by simpa using last
      rw [splitBlanksFrom_blank blank]
      cases b <;> rfl
    | cons e t =>
      rw [List.getLast?_cons_cons] at last
      cases here : d.isBlank with
      | true =>
        rw [splitBlanksFrom_blank here]
        cases b <;> exact ih last true
      | false =>
        obtain ⟨first, rest, words⟩ := exists_splitBlanksFrom false (e :: t)
        have behind := ih last false
        rw [words] at behind
        rw [splitBlanksFrom_visible here b words]
        change rest.getLast? = some [] at behind
        cases b with
        | false => exact behind
        | true =>
          change ((d :: first) :: rest).getLast? = some []
          rw [List.getLast?_cons, behind]
          rfl

/-- A text without empty pieces has no blanks at its ends. -/
theorem strip_of_nil_not_mem (full : [] ∉ splitBlanks t) : strip t = t := by
  have visible : EndsVisible t := by
    intro c last
    refine Bool.eq_false_iff.2 fun blank => full ?_
    have ends := getLast?_splitBlanksFrom blank last false
    exact List.mem_of_mem_drop (List.mem_of_getLast? ends)
  have front : stripLeft t = t := by
    cases t with
    | nil => rfl
    | cons c t =>
      refine List.dropWhile_cons_of_neg fun blank => full ?_
      rw [splitBlanks, splitBlanksFrom_blank blank]
      exact List.mem_cons_self
  have back : stripLeft t.reverse = t.reverse := by
    cases reversed : t.reverse with
    | nil => rfl
    | cons c r =>
      have last : t.getLast? = some c := by rw [← List.head?_reverse, reversed]; rfl
      exact List.dropWhile_cons_of_neg (by simp [visible c last])
  rw [strip, front, stripRight, back, List.reverse_reverse]

end Arabize.Text
