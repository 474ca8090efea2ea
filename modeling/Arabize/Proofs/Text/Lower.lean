import Arabize.Proofs.Text.Search
import Arabize.Text.Lower
import Mathlib.Data.Nat.Find
import Mathlib.Order.Nat

/-! # Searching the lower-case form of a text

What is sought in the lower-case form of a text can be sought in the text itself, the case of
ASCII letters aside: it is found at the same places (`startsWith_drop_lowerAfter`).  These are
counted differently, though.  A dotted capital `i` has a lower-case form of two code points, so
what stands behind it stands further on in the lower-case form, by one for each of them.  A
search in a beginning of the lower-case form so sees a beginning of the text that may be shorter
(`lastIn_take_lower_iff`).
-/

namespace Arabize

namespace CodePoint

/-- Whether `c` spells `d`: it is the same, or `d` is a small ASCII letter and `c` its capital. -/
def spells (d c : CodePoint) : Bool := c == d || (c.isUpperLetter && c.val + 0x20 == d.val)

/-- The capital letter whose lower-case form takes two code points. -/
def dottedI : CodePoint := 0x130

/-- An ASCII code point that no letter past ASCII has for its lower-case form. -/
def Plain (d : CodePoint) : Prop := d.val < 0x80 ∧ d.isUpperLetter = false ∧ d.val ≠ 0x6B

instance (d : CodePoint) : Decidable d.Plain := inferInstanceAs (Decidable (_ ∧ _))

theorem lowerByRuns_cases (n : Nat) (runs : List (Nat × Nat × Nat × Int)) :
    lowerByRuns n runs = n ∨ ∃ run ∈ runs, run.1 ≤ n ∧ n ≤ run.2.1 ∧
      lowerByRuns n runs = ((n : Int) + run.2.2.2).toNat := by
  induction runs with
  | nil => exact .inl rfl
  | cons run runs ih =>
    obtain ⟨first, last, step, shift⟩ := run
    rw [lowerByRuns]
    split
    next here =>
      simp only [Bool.and_eq_true, decide_eq_true_eq] at here
      exact .inr ⟨_, List.mem_cons_self, here.1.1, here.1.2, rfl⟩
    next =>
      refine ih.imp_right ?_
      rintro ⟨run, member, found⟩
      exact ⟨run, List.mem_cons_of_mem _ member, found⟩

/-- No run leads into ASCII but that of the kelvin sign. -/
theorem shift_of_mem_lowerRuns : ∀ run ∈ Text.lowerRuns,
    (0x80 ≤ (run.1 : Int) + run.2.2.2 ∧ (run.2.1 : Int) + run.2.2.2 < 0x110000) ∨
      (run.1 = 0x212A ∧ run.2.1 = 0x212A ∧ run.2.2.2 = -8383) := by
  decide +kernel

/-- A letter past ASCII has no plain code point for its lower-case form. -/
theorem lower_ne_of_plain {c d : CodePoint} (plain : d.Plain) (far : 0x80 ≤ c.val) :
    c.lower ≠ d := by
  have small : c.isUpperLetter = false := by
    simp only [isUpperLetter, Bool.and_eq_false_iff, decide_eq_false_iff_not]
    omega
  have bound := c.isLt
  rintro rfl
  obtain ⟨ascii, _, notK⟩ := plain
  have value : (c.lower).val = lowerByRuns c.val Text.lowerRuns % 0x110000 := by
    rw [lower, small, if_neg Bool.false_ne_true, if_neg (by omega)]
    rfl
  rw [value] at ascii notK
  rcases lowerByRuns_cases c.val Text.lowerRuns with same | ⟨run, member, low, high, found⟩
  · rw [same] at ascii
    omega
  · rw [found] at ascii notK
    rcases shift_of_mem_lowerRuns run member with ⟨least, most⟩ | ⟨first, last, shift⟩
    · omega
    · rw [shift] at notK
      omega

/-- A letter has a plain lower-case form exactly if it spells it. -/
theorem lower_eq_iff_spells {c d : CodePoint} (plain : d.Plain) :
    c.lower = d ↔ d.spells c = true := by
  have bound := c.isLt
  simp only [spells, Bool.or_eq_true, Bool.and_eq_true, beq_iff_eq]
  by_cases capital : c.isUpperLetter = true
  · -- A capital is no plain code point itself.
    have differs : c ≠ d := by
      rintro rfl
      have small := plain.2.1
      rw [capital] at small
      cases small
    have small : c.val + 0x20 < 0x110000 := by
      simp only [isUpperLetter, Bool.and_eq_true, decide_eq_true_eq] at capital
      omega
    rw [lower, if_pos capital, Fin.ext_iff]
    simp only [differs, capital, true_and, false_or, ofNat, Fin.ofNat, Nat.mod_eq_of_lt small]
  · by_cases far : 0x80 ≤ c.val
    · have other : c ≠ d := by
        rintro rfl
        exact absurd plain.1 (by omega)
      simp [lower_ne_of_plain plain far, other, capital]
    · rw [lower, if_neg capital, if_pos (by omega)]
      simp [capital]

/-- What is no small letter is spelled by itself only. -/
theorem spells_iff_eq {c d : CodePoint} (caseless : d.isLowerLetter = false) :
    d.spells c = true ↔ c = d := by
  have other : ¬ (c.isUpperLetter = true ∧ c.val + 0x20 = d.val) := by
    rintro ⟨capital, value⟩
    simp only [isUpperLetter, Bool.and_eq_true, decide_eq_true_eq] at capital
    simp only [isLowerLetter, Bool.and_eq_false_iff, decide_eq_false_iff_not] at caseless
    omega
  simp [spells, other]

/-- A small letter is spelled by letters only. -/
theorem isNameChar_of_spells {c d : CodePoint} (small : d.isLowerLetter = true)
    (spelled : d.spells c = true) : c.isNameChar = true := by
  simp only [spells, Bool.or_eq_true, Bool.and_eq_true, beq_iff_eq] at spelled
  rcases spelled with rfl | ⟨capital, _⟩
  · simp [isNameChar, small]
  · simp [isNameChar, capital]

theorem not_spells_dottedI {d : CodePoint} (plain : d.Plain) : d.spells dottedI = false := by
  have differs : dottedI ≠ d := by
    rintro rfl
    exact absurd plain.1 (by decide)
  simp [spells, differs, show dottedI.isUpperLetter = false by decide]

end CodePoint

namespace Text

open CodePoint (dottedI Plain)

/-! ## Beginnings -/

/-- Whether a text begins with a spelling of another one. -/
def beginsWith : (t needle : Text) → Bool
  | _, [] => true
  | [], _ :: _ => false
  | c :: t, d :: needle => d.spells c && beginsWith t needle

/-- A spelling of two texts is a spelling of the first one and then one of the second. -/
theorem exists_of_beginsWith_append {t needle more : Text}
    (found : beginsWith t (needle ++ more) = true) :
    ∃ spelling rest, t = spelling ++ rest ∧ spelling.length = needle.length ∧
      beginsWith spelling needle = true ∧ beginsWith rest more = true := by
  induction needle generalizing t with
  | nil => exact ⟨[], t, rfl, rfl, rfl, found⟩
  | cons d needle ih =>
    cases t with
    | nil => cases found
    | cons c t =>
      rw [List.cons_append, beginsWith, Bool.and_eq_true] at found
      obtain ⟨spelling, rest, rfl, same, here, behind⟩ := ih found.2
      refine ⟨c :: spelling, rest, rfl, congrArg (· + 1) same, ?_, behind⟩
      rw [beginsWith, found.1, here, Bool.true_and]

/-- Nothing behind a spelling undoes it. -/
theorem beginsWith_append_right {spelling needle : Text}
    (spelled : beginsWith spelling needle = true) (rest : Text) :
    beginsWith (spelling ++ rest) needle = true := by
  induction needle generalizing spelling with
  | nil => cases spelling <;> cases rest <;> rfl
  | cons d needle ih =>
    cases spelling with
    | nil => cases spelled
    | cons c spelling =>
      rw [beginsWith, Bool.and_eq_true] at spelled
      rw [List.cons_append, beginsWith, spelled.1, ih spelled.2, Bool.true_and]

/-- A text of plain code points that does not end with a small `i`: it stands in the lower-case
    form of a text only where the text spells it. -/
structure Sought (needle : Text) : Prop where
  nonempty : needle ≠ []
  plain : ∀ d ∈ needle, Plain d
  last : needle.getLast? ≠ some 0x69

instance (needle : Text) : Decidable (Sought needle) :=
  decidable_of_iff (needle ≠ [] ∧ (needle.all fun d => decide (Plain d)) = true ∧
      needle.getLast? ≠ some 0x69)
    ⟨fun ⟨nonempty, plain, last⟩ =>
        ⟨nonempty, fun d member => of_decide_eq_true (List.all_eq_true.1 plain d member), last⟩,
      fun sought =>
        ⟨sought.nonempty, List.all_eq_true.2 fun d member => decide_eq_true (sought.plain d member),
          sought.last⟩⟩

theorem lowerAfter_dottedI (before t : Text) :
    lowerAfter before (dottedI :: t) = 0x69 :: 0x307 :: lowerAfter (dottedI :: before) t := rfl

/-- Any other code point has one code point for its lower-case form. -/
theorem lowerAfter_cons {c : CodePoint} (single : c ≠ dottedI) (before t : Text) :
    ∃ e, lowerAfter before (c :: t) = e :: lowerAfter (c :: before) t ∧
      ∀ d, Plain d → (e = d ↔ d.spells c = true) := by
  have notDotted : c.val ≠ 0x130 := fun same => single (Fin.ext same)
  rw [lowerAfter, if_neg notDotted]
  by_cases sigma : c.val = 0x3A3
  · -- Neither form of a small sigma is plain, and a capital one spells nothing plain.
    have capital : c.isUpperLetter = false := by
      simp [CodePoint.isUpperLetter, sigma]
    have unspelled : ∀ d, Plain d → d.spells c = false := by
      rintro d ⟨ascii, _⟩
      have differs : c ≠ d := by
        rintro rfl
        omega
      simp [CodePoint.spells, differs, capital]
    have form : ∀ e : CodePoint, 0x80 ≤ e.val → ∀ d, Plain d → (e = d ↔ d.spells c = true) := by
      rintro e far d plain
      refine iff_of_false ?_ (by simp [unspelled d plain])
      rintro rfl
      exact absurd plain.1 (by omega)
    rw [if_pos sigma]
    split
    · exact ⟨0x3C2, rfl, form _ (by decide)⟩
    · exact ⟨0x3C3, rfl, form _ (by decide)⟩
  · rw [if_neg sigma]
    exact ⟨c.lower, rfl, fun d plain => CodePoint.lower_eq_iff_spells plain⟩

/-- A code point that is its own lower-case form stays in a text that is lower-cased. -/
theorem mem_lowerAfter {c : CodePoint} {t : Text} (own : c.lower = c) (notDotted : c.val ≠ 0x130)
    (notSigma : c.val ≠ 0x3A3) (member : c ∈ t) (before : Text) : c ∈ lowerAfter before t := by
  induction t generalizing before with
  | nil => cases member
  | cons e t ih =>
    rw [lowerAfter, List.mem_append]
    rcases List.mem_cons.1 member with rfl | later
    · left
      rw [if_neg notDotted, if_neg notSigma, own]
      exact List.mem_cons_self
    · exact .inr (ih later _)

theorem startsWith_cons (c d : CodePoint) (t needle : Text) :
    startsWith (c :: t) (d :: needle) = (d == c && startsWith t needle) := rfl

/-- A text begins with a spelling of a needle if its lower-case form begins with the needle. -/
theorem startsWith_lowerAfter {needle : Text} (plain : ∀ d ∈ needle, Plain d)
    (last : needle.getLast? ≠ some 0x69) (before t : Text) :
    startsWith (lowerAfter before t) needle = beginsWith t needle := by
  induction needle generalizing before t with
  | nil => cases t <;> rfl
  | cons d needle ih =>
    obtain ⟨plainHere, plainBehind⟩ := List.forall_mem_cons.1 plain
    cases t with
    | nil => rfl
    | cons c t =>
      by_cases dotted : c = dottedI
      · subst dotted
        rw [lowerAfter_dottedI, beginsWith, CodePoint.not_spells_dottedI plainHere, Bool.false_and,
          startsWith_cons]
        -- Of the two code points the first may be plain, but the second is not.
        cases needle with
        | nil =>
          have other : d ≠ 0x69 := fun same => last (by rw [same]; rfl)
          simp [other]
        | cons e needle =>
          have other : e ≠ 0x307 := by
            rintro rfl
            exact absurd (plainBehind _ List.mem_cons_self).1 (by decide)
          simp [startsWith_cons, other]
      · obtain ⟨e, form, spelled⟩ := lowerAfter_cons dotted before t
        have here : (d == e) = d.spells c := by
          rw [Bool.eq_iff_iff, beq_iff_eq, eq_comm, spelled d plainHere]
        have lastBehind : needle.getLast? ≠ some 0x69 := by
          cases needle with
          | nil => exact nofun
          | cons e needle => exact last
        rw [form, startsWith_cons, here, ih plainBehind lastBehind, beginsWith]

/-! ## Places -/

/-- How many code points the lower-case form of a text has. -/
def lowerLength (t : Text) : Nat := t.length + t.count dottedI

theorem lowerLength_dottedI (t : Text) : lowerLength (dottedI :: t) = lowerLength t + 2 := by
  simp only [lowerLength, List.length_cons, List.count_cons_self]
  omega

theorem lowerLength_cons {c : CodePoint} (single : c ≠ dottedI) (t : Text) :
    lowerLength (c :: t) = lowerLength t + 1 := by
  simp only [lowerLength, List.length_cons, List.count_cons_of_ne single]
  omega

theorem beginsWith_nil_left {needle : Text} (nonempty : needle ≠ []) :
    beginsWith [] needle = false := by
  cases needle with
  | nil => exact absurd rfl nonempty
  | cons d needle => rfl

/-- A needle stands in the lower-case form of a text where the text spells it, counted in the
    lower-case form. -/
theorem startsWith_drop_lowerAfter {needle : Text} (sought : Sought needle) (before t : Text)
    (j : Nat) : startsWith ((lowerAfter before t).drop j) needle = true ↔
      ∃ i, j = lowerLength (t.take i) ∧ beginsWith (t.drop i) needle = true := by
  induction t generalizing before j with
  | nil =>
    simp [lowerAfter, startsWith_nil_left sought.nonempty, beginsWith_nil_left sought.nonempty]
  | cons c t ih =>
    -- At the front, or behind the first code point.
    have front : ∀ j, (∃ i, j = lowerLength ((c :: t).take i) ∧
          beginsWith ((c :: t).drop i) needle = true) ↔
        j = 0 ∧ beginsWith (c :: t) needle = true ∨ ∃ i, j = lowerLength (c :: t.take i) ∧
          beginsWith (t.drop i) needle = true := by
      intro j
      constructor
      · rintro ⟨i, place, found⟩
        cases i with
        | zero => exact .inl ⟨place, found⟩
        | succ i => exact .inr ⟨i, place, found⟩
      · rintro (⟨rfl, found⟩ | ⟨i, place, found⟩)
        · exact ⟨0, rfl, found⟩
        · exact ⟨i + 1, place, found⟩
    rw [front]
    by_cases dotted : c = dottedI
    · subst dotted
      simp only [lowerLength_dottedI]
      match j with
      | 0 => simp [startsWith_lowerAfter sought.plain sought.last]
      -- Between the two code points no place of the text is counted, and no needle begins there.
      | 1 =>
        have combining : startsWith (0x307 :: lowerAfter (dottedI :: before) t) needle = false := by
          obtain ⟨d, rest, rfl⟩ := List.exists_cons_of_ne_nil sought.nonempty
          have other : d ≠ 0x307 := by
            rintro rfl
            exact absurd (sought.plain _ List.mem_cons_self).1 (by decide)
          simp [startsWith_cons, other]
        rw [lowerAfter_dottedI, List.drop_one, List.tail_cons, combining]
        refine iff_of_false Bool.false_ne_true ?_
        rintro (⟨same, _⟩ | ⟨i, same, _⟩)
        · cases same
        · omega
      | j + 2 =>
        rw [lowerAfter_dottedI, List.drop_succ_cons, List.drop_succ_cons, ih]
        simp
    · obtain ⟨e, form, _⟩ := lowerAfter_cons dotted before t
      simp only [lowerLength_cons dotted]
      cases j with
      | zero => simp [startsWith_lowerAfter sought.plain sought.last]
      | succ j =>
        rw [form, List.drop_succ_cons, ih]
        simp

/-! ## Beginnings of the lower-case form -/

theorem lowerLength_append (t u : Text) :
    lowerLength (t ++ u) = lowerLength t + lowerLength u := by
  simp only [lowerLength, List.length_append, List.count_append]
  omega

theorem lowerLength_take_lt {t : Text} {i k : Nat} (before : i < k) (inside : k ≤ t.length) :
    lowerLength (t.take i) < lowerLength (t.take k) := by
  have split : t.take k = t.take i ++ (t.take k).drop i := by
    rw [← List.take_append_drop i (t.take k), List.take_take, Nat.min_eq_left before.le,
      List.drop_left' (by rw [List.length_take]; omega)]
  have wide : ((t.take k).drop i).length = k - i := by
    rw [List.length_drop, List.length_take, Nat.min_eq_left inside]
  rw [split, lowerLength_append, lowerLength, lowerLength, wide]
  omega

theorem lowerLength_take_le {t : Text} {i k : Nat} (within : i ≤ k) (inside : k ≤ t.length) :
    lowerLength (t.take i) ≤ lowerLength (t.take k) := by
  rcases within.eq_or_lt with rfl | before
  · exact Nat.le_refl _
  · exact (lowerLength_take_lt before inside).le

/-- How many code points of a text have lower-case forms that fit into an offset. -/
def fitting (offset : Nat) (t : Text) : Nat :=
  Nat.findGreatest (fun k => lowerLength (t.take k) ≤ offset) t.length

theorem le_fitting_iff {offset k : Nat} {t : Text} :
    k ≤ fitting offset t ↔ k ≤ t.length ∧ lowerLength (t.take k) ≤ offset := by
  constructor
  · intro within
    have fits : lowerLength (t.take (fitting offset t)) ≤ offset :=
      Nat.findGreatest_spec (P := fun k => lowerLength (t.take k) ≤ offset) (Nat.zero_le _)
        (Nat.zero_le _)
    have inside : fitting offset t ≤ t.length := Nat.findGreatest_le _
    exact ⟨within.trans inside, (lowerLength_take_le within inside).trans fits⟩
  · rintro ⟨inside, fits⟩
    exact Nat.le_findGreatest inside fits

theorem fitting_le (offset : Nat) (t : Text) : fitting offset t ≤ offset := by
  obtain ⟨inside, fits⟩ := le_fitting_iff.1 (Nat.le_refl (fitting offset t))
  rw [lowerLength, List.length_take, Nat.min_eq_left inside] at fits
  exact (Nat.le_add_right _ _).trans fits

/-- Where no dotted capital `i` stands before an offset, it fits itself. -/
theorem le_fitting_of_not_mem {offset k : Nat} {t : Text} (single : dottedI ∉ t.take offset) :
    k ≤ fitting offset t ↔ k ≤ t.length ∧ k ≤ offset := by
  have length : ∀ {k}, k ≤ t.length → k ≤ offset → lowerLength (t.take k) = k := by
    intro k inside within
    have undotted : dottedI ∉ t.take k := fun member =>
      single (List.take_subset_take_left t within member)
    rw [lowerLength, List.count_eq_zero.2 undotted, List.length_take, Nat.min_eq_left inside,
      Nat.add_zero]
  constructor
  · exact fun within => ⟨(le_fitting_iff.1 within).1, within.trans (fitting_le offset t)⟩
  · rintro ⟨inside, within⟩
    exact le_fitting_iff.2 ⟨inside, (length inside within).le.trans within⟩

/-- A needle is spelled at a place of a text, wholly before an offset. -/
def Occurs (needle t : Text) (offset i : Nat) : Prop :=
  beginsWith (t.drop i) needle = true ∧ i + needle.length ≤ offset

instance (needle t : Text) (offset i : Nat) : Decidable (Occurs needle t offset i) :=
  inferInstanceAs (Decidable (_ ∧ _))

/-- A needle is spelled at a place of a text, and at none behind it, wholly before an offset. -/
def LastAt (needle t : Text) (offset i : Nat) : Prop :=
  Occurs needle t offset i ∧ ∀ k, Occurs needle t offset k → k ≤ i

/-- A needle that is spelled somewhere has a last place. -/
theorem Occurs.exists_last {needle t : Text} {offset i : Nat} (occurs : Occurs needle t offset i) :
    ∃ k, LastAt needle t offset k := by
  have bound : ∀ k, Occurs needle t offset k → k ≤ offset := fun k found =>
    (Nat.le_add_right _ _).trans found.2
  refine ⟨Nat.findGreatest (Occurs needle t offset) offset,
    Nat.findGreatest_spec (bound i occurs) occurs, fun k found => ?_⟩
  exact Nat.le_findGreatest (bound k found) found

/-- A spelling of plain code points is as long as its lower-case form. -/
theorem lowerLength_of_beginsWith {needle t : Text} (plain : ∀ d ∈ needle, Plain d)
    (found : beginsWith t needle = true) :
    needle.length ≤ t.length ∧ lowerLength (t.take needle.length) = needle.length := by
  induction needle generalizing t with
  | nil => exact ⟨Nat.zero_le _, rfl⟩
  | cons d needle ih =>
    obtain ⟨plainHere, plainBehind⟩ := List.forall_mem_cons.1 plain
    cases t with
    | nil => cases found
    | cons c t =>
      rw [beginsWith, Bool.and_eq_true] at found
      have single : c ≠ dottedI := by
        rintro rfl
        rw [CodePoint.not_spells_dottedI plainHere] at found
        cases found.1
      obtain ⟨long, wide⟩ := ih plainBehind found.2
      refine ⟨Nat.succ_le_succ long, ?_⟩
      rw [List.length_cons, List.take_succ_cons, lowerLength_cons single, wide]

section Lower

variable {needle t : Text} {offset : Nat}

/-- What ends before an offset in the lower-case form ends within what fits into it. -/
theorem occurs_fitting_iff (sought : Sought needle) {i : Nat}
    (found : beginsWith (t.drop i) needle = true) :
    lowerLength (t.take i) + needle.length ≤ offset ↔ Occurs needle t (fitting offset t) i := by
  obtain ⟨long, wide⟩ := lowerLength_of_beginsWith sought.plain found
  have filled : 0 < needle.length := List.length_pos_iff.2 sought.nonempty
  rw [List.length_drop] at long
  -- Behind the end of the text only the empty needle would be spelled.
  have inside : i + needle.length ≤ t.length := by omega
  have whole : lowerLength (t.take (i + needle.length)) =
      lowerLength (t.take i) + needle.length := by
    rw [List.take_add, lowerLength_append, wide]
  rw [Occurs, le_fitting_iff, whole]
  exact ⟨fun fits => ⟨found, inside, fits⟩, fun occurs => occurs.2.2⟩

theorem startsWith_drop_take_lower (sought : Sought needle) (j : Nat) :
    startsWith ((t.lower.take offset).drop j) needle = true ↔
      ∃ i, j = lowerLength (t.take i) ∧ Occurs needle t (fitting offset t) i := by
  have filled : 0 < needle.length := List.length_pos_iff.2 sought.nonempty
  rw [List.drop_take, startsWith_iff, List.prefix_take_iff, ← startsWith_iff, lower,
    startsWith_drop_lowerAfter sought]
  constructor
  · rintro ⟨⟨i, rfl, found⟩, fits⟩
    exact ⟨i, rfl, (occurs_fitting_iff sought found).1 (by omega)⟩
  · rintro ⟨i, rfl, occurs⟩
    have fits : lowerLength (t.take i) + needle.length ≤ offset :=
      (occurs_fitting_iff sought occurs.1).2 occurs
    exact ⟨⟨i, rfl, occurs.1⟩, by omega⟩

/-- The last place of a needle in a beginning of the lower-case form is the last place where it is
    spelled within what fits into it. -/
theorem lastIn_take_lower_iff (sought : Sought needle) (j : Nat) :
    LastIn needle (t.lower.take offset) j ↔
      ∃ i, j = lowerLength (t.take i) ∧ LastAt needle t (fitting offset t) i := by
  constructor
  · rintro ⟨found, last⟩
    obtain ⟨i, rfl, occurs⟩ := (startsWith_drop_take_lower sought j).1 found
    refine ⟨i, rfl, occurs, fun k also => Nat.le_of_not_lt fun behind => ?_⟩
    -- Places that are further on are counted further on, so the last one is the same.
    have inside : k ≤ t.length :=
      (Nat.le_add_right _ _).trans (also.2.trans (le_fitting_iff.1 (Nat.le_refl _)).1)
    exact absurd (last _ ((startsWith_drop_take_lower sought _).2 ⟨k, rfl, also⟩))
      (Nat.not_le.2 (lowerLength_take_lt behind inside))
  · rintro ⟨i, rfl, occurs, last⟩
    have inside : i ≤ t.length :=
      (Nat.le_add_right _ _).trans (occurs.2.trans (le_fitting_iff.1 (Nat.le_refl _)).1)
    refine ⟨(startsWith_drop_take_lower sought _).2 ⟨i, rfl, occurs⟩, fun j found => ?_⟩
    obtain ⟨k, rfl, also⟩ := (startsWith_drop_take_lower sought j).1 found
    exact lowerLength_take_le (last k also) inside

end Lower

end Text

end Arabize
