import Arabize.Json.Reader
import Arabize.Json.Writer
import Arabize.Proofs.Text.Decimal

/-! # Reading words and numbers back

Behind a written value stands nothing, or a comma or a line break.  Neither of these goes on a
word or a number, so what is read does not depend on what stands behind it
(`readScalar_append`), and it is enough to read a word or a number by itself.
-/

namespace Arabize.Json

/-- What may stand behind a written value: nothing, or a comma or a line break first. -/
def Ends (rest : Text) : Prop :=
  ∀ c, rest.head? = some c → c = CodePoint.ofChar ',' ∨ c = CodePoint.ofChar '\n'

theorem ends_nil : Ends [] := by
  intro c inside
  cases inside

theorem ends_comma (t : Text) : Ends (',' :: t) := by
  intro c here
  exact .inl (Option.some.inj here).symm

theorem ends_newline (level : Nat) (t : Text) : Ends (newline level ++ t) := by
  intro c here
  exact .inr (Option.some.inj here).symm

namespace Ends

variable {rest : Text}

theorem head?_append (ends : Ends rest) {c : CodePoint} (comma : c ≠ CodePoint.ofChar ',')
    (line : c ≠ CodePoint.ofChar '\n') (t : Text) :
    ((t ++ rest).head? == some c) = (t.head? == some c) := by
  cases t with
  | cons d t => rfl
  | nil =>
    refine beq_eq_false_iff_ne.2 fun here => ?_
    rcases ends c here with rfl | rfl
    · exact comma rfl
    · exact line rfl

theorem takeWhile_append (ends : Ends rest) {p : CodePoint → Bool}
    (comma : p (CodePoint.ofChar ',') = false) (line : p (CodePoint.ofChar '\n') = false)
    (t : Text) : (t ++ rest).takeWhile p = t.takeWhile p := by
  induction t with
  | cons c t ih => rw [List.cons_append, List.takeWhile_cons, List.takeWhile_cons, ih]
  | nil =>
    cases rest with
    | nil => rfl
    | cons c rest => rcases ends c rfl with rfl | rfl <;> simp [comma, line]

theorem startsWith_append (ends : Ends rest) {head : Text} (comma : CodePoint.ofChar ',' ∉ head)
    (line : CodePoint.ofChar '\n' ∉ head) (t : Text) :
    Text.startsWith (t ++ rest) head = Text.startsWith t head := by
  induction head generalizing t with
  | nil => simp [Text.startsWith]
  | cons c head ih =>
    rw [List.mem_cons, not_or] at comma line
    cases t with
    | cons d t =>
      simp only [Text.startsWith, List.cons_append, List.isPrefixOf] at ih ⊢
      rw [ih comma.2 line.2]
    | nil =>
      cases rest with
      | nil => rfl
      | cons d rest =>
        have other : (c == d) = false := by
          rcases ends d rfl with rfl | rfl
          · exact beq_eq_false_iff_ne.2 (Ne.symm comma.1)
          · exact beq_eq_false_iff_ne.2 (Ne.symm line.1)
        simp [Text.startsWith, List.isPrefixOf, other]

end Ends

variable {rest : Text}

/-! ## Words -/

theorem readWord?_append (ends : Ends rest) (t : Text) : readWord? (t ++ rest) = readWord? t := by
  -- No word holds a comma or a line break, so none reaches past the end.
  have bare : ∀ w ∈ words.map Prod.fst, CodePoint.ofChar ',' ∉ w ∧ CodePoint.ofChar '\n' ∉ w := by
    decide
  have agree : ∀ w ∈ words, Text.startsWith (t ++ rest) w.1 = Text.startsWith t w.1 := by
    intro w member
    obtain ⟨comma, line⟩ := bare w.1 (List.mem_map_of_mem member)
    exact ends.startsWith_append comma line t
  rw [readWord?, readWord?, ← List.head?_filter, ← List.head?_filter, List.filter_congr agree]

theorem length_readWord?_le {t : Text} {j : Json} {n : Nat} (word : readWord? t = some (j, n)) :
    n ≤ t.length := by
  rw [readWord?, Option.map_eq_some_iff] at word
  obtain ⟨w, found, same⟩ := word
  cases same
  have front := List.find?_some found
  exact (List.isPrefixOf_iff_prefix.1 front).length_le

/-! ## Numerals -/

/-- A numeral without its sign. -/
def unsigned (t : Text) : Text :=
  if t.head? == some (CodePoint.ofChar '-') then t.drop 1 else t

/-- The digits before the point. -/
def wholeDigits (t : Text) : Text :=
  if t.head? == some (CodePoint.ofChar '0') then t.take 1 else t.takeWhile CodePoint.isDigit

/-- The digits behind the point. -/
def fractionDigits (t : Text) : Text :=
  if t.head? == some (CodePoint.ofChar '.') then (t.drop 1).takeWhile CodePoint.isDigit else []

/-- What follows the digits behind the point. -/
def afterFraction (t : Text) : Text :=
  if fractionDigits t = [] then t else t.drop (1 + (fractionDigits t).length)

theorem readNumeral?_eq (t : Text) :
    readNumeral? t =
      let whole := wholeDigits (unsigned t)
      let behind := (unsigned t).drop whole.length
      let exponent := readExponent? (afterFraction behind)
      if whole = [] then none
      else
        some ⟨t.head? == some (CodePoint.ofChar '-'), whole, fractionDigits behind,
          exponent.map Prod.fst,
          (if t.head? == some (CodePoint.ofChar '-') then 1 else 0) + whole.length
            + (if fractionDigits behind = [] then 0 else 1 + (fractionDigits behind).length)
            + (match exponent with
              | some (_, n) => n
              | none => 0)⟩ := rfl

theorem length_unsigned (t : Text) :
    (if t.head? == some (CodePoint.ofChar '-') then 1 else 0) + (unsigned t).length = t.length := by
  unfold unsigned
  split
  next signed =>
    cases t with
    | nil => cases signed
    | cons c t => rw [List.drop_one, List.tail_cons, List.length_cons, Nat.add_comm]
  next => exact Nat.zero_add _

theorem length_wholeDigits_le (t : Text) : (wholeDigits t).length ≤ t.length := by
  unfold wholeDigits
  split
  · exact List.length_take_le' _ _
  · exact (List.takeWhile_prefix _).length_le

theorem length_fractionDigits {t : Text} (pointed : fractionDigits t ≠ []) :
    1 + (fractionDigits t).length ≤ t.length := by
  unfold fractionDigits at pointed ⊢
  split
  next point =>
    cases t with
    | nil => cases point
    | cons c t =>
      rw [List.drop_one, List.tail_cons, List.length_cons, Nat.add_comm]
      exact Nat.succ_le_succ (List.takeWhile_prefix _).length_le
  next plain =>
    rw [if_neg plain] at pointed
    exact absurd rfl pointed

theorem length_afterFraction (t : Text) :
    (if fractionDigits t = [] then 0 else 1 + (fractionDigits t).length) +
      (afterFraction t).length = t.length := by
  unfold afterFraction
  split
  · exact Nat.zero_add _
  next pointed =>
    rw [List.length_drop]
    exact Nat.add_sub_cancel' (length_fractionDigits pointed)

/-- Whether an exponent has a sign. -/
def signed (t : Text) : Bool :=
  t.head? == some (CodePoint.ofChar '-') || t.head? == some (CodePoint.ofChar '+')

/-- The digits of an exponent. -/
def exponentDigits (t : Text) : Text :=
  (if signed t then t.drop 1 else t).takeWhile CodePoint.isDigit

theorem readExponent?_cons (c : CodePoint) (t : Text) :
    readExponent? (c :: t) =
      if c = CodePoint.ofChar 'e' ∨ c = CodePoint.ofChar 'E' then
        if exponentDigits t = [] then none
        else
          some (if t.head? == some (CodePoint.ofChar '-') then
              -(Text.decimalValue (exponentDigits t) : Int)
            else Text.decimalValue (exponentDigits t),
            1 + (if signed t then 1 else 0) + (exponentDigits t).length)
      else none := by
  cases t <;> rfl

theorem length_exponentDigits_le (t : Text) :
    (if signed t then 1 else 0) + (exponentDigits t).length ≤ t.length := by
  unfold exponentDigits
  split
  next sign =>
    cases t with
    | nil => cases sign
    | cons c t =>
      rw [List.drop_one, List.tail_cons, List.length_cons, Nat.add_comm]
      exact Nat.succ_le_succ (List.takeWhile_prefix _).length_le
  next =>
    rw [Nat.zero_add]
    exact (List.takeWhile_prefix _).length_le

theorem length_readExponent?_le {t : Text} {e : Int} {n : Nat}
    (read : readExponent? t = some (e, n)) : n ≤ t.length := by
  cases t with
  | nil => cases read
  | cons c t =>
    have digits := length_exponentDigits_le t
    rw [readExponent?_cons] at read
    split at read
    · split at read
      · cases read
      · rw [Option.some.injEq, Prod.mk.injEq] at read
        rw [List.length_cons, ← read.2]
        omega
    · cases read

theorem length_readNumeral?_le {t : Text} {n : Numeral} (read : readNumeral? t = some n) :
    n.length ≤ t.length := by
  rw [readNumeral?_eq] at read
  dsimp only at read
  split at read
  · cases read
  · cases read
    have sign := length_unsigned t
    have whole := length_wholeDigits_le (unsigned t)
    have point := length_afterFraction ((unsigned t).drop (wholeDigits (unsigned t)).length)
    rw [List.length_drop] at point
    dsimp only
    cases exponent : readExponent? (afterFraction
        ((unsigned t).drop (wholeDigits (unsigned t)).length)) with
    | none =>
      dsimp only
      omega
    | some read =>
      have := length_readExponent?_le exponent
      dsimp only
      omega

theorem unsigned_append (ends : Ends rest) (t : Text) :
    unsigned (t ++ rest) = unsigned t ++ rest := by
  rw [unsigned, ends.head?_append (by decide) (by decide), unsigned]
  split
  next signed =>
    cases t with
    | nil => cases signed
    | cons c t => rfl
  next => rfl

theorem wholeDigits_append (ends : Ends rest) (t : Text) :
    wholeDigits (t ++ rest) = wholeDigits t := by
  rw [wholeDigits, ends.head?_append (by decide) (by decide), wholeDigits,
    ends.takeWhile_append (by decide) (by decide)]
  split
  next zero =>
    cases t with
    | nil => cases zero
    | cons c t => rfl
  next => rfl

theorem fractionDigits_append (ends : Ends rest) (t : Text) :
    fractionDigits (t ++ rest) = fractionDigits t := by
  rw [fractionDigits, ends.head?_append (by decide) (by decide), fractionDigits]
  split
  next point =>
    cases t with
    | nil => cases point
    | cons c t => exact ends.takeWhile_append (by decide) (by decide) t
  next => rfl

theorem afterFraction_append (ends : Ends rest) (t : Text) :
    afterFraction (t ++ rest) = afterFraction t ++ rest := by
  rw [afterFraction, fractionDigits_append ends, afterFraction]
  split
  · rfl
  next pointed => exact List.drop_append_of_le_length (length_fractionDigits pointed)

theorem signed_append (ends : Ends rest) (t : Text) : signed (t ++ rest) = signed t := by
  rw [signed, ends.head?_append (by decide) (by decide),
    ends.head?_append (by decide) (by decide), signed]

theorem exponentDigits_append (ends : Ends rest) (t : Text) :
    exponentDigits (t ++ rest) = exponentDigits t := by
  rw [exponentDigits, signed_append ends, exponentDigits]
  split
  next sign =>
    cases t with
    | nil => cases sign
    | cons c t => exact ends.takeWhile_append (by decide) (by decide) t
  next => exact ends.takeWhile_append (by decide) (by decide) t

theorem readExponent?_append (ends : Ends rest) (t : Text) :
    readExponent? (t ++ rest) = readExponent? t := by
  cases t with
  | nil =>
    cases rest with
    | nil => rfl
    | cons c rest =>
      have other : ¬ (c = CodePoint.ofChar 'e' ∨ c = CodePoint.ofChar 'E') := by
        rcases ends c rfl with rfl | rfl <;> decide
      rw [List.nil_append, readExponent?_cons, if_neg other]
      rfl
  | cons c t =>
    rw [List.cons_append, readExponent?_cons, readExponent?_cons, exponentDigits_append ends,
      signed_append ends, ends.head?_append (by decide) (by decide)]

theorem readNumeral?_append (ends : Ends rest) (t : Text) :
    readNumeral? (t ++ rest) = readNumeral? t := by
  rw [readNumeral?_eq, readNumeral?_eq]
  simp only [ends.head?_append (c := CodePoint.ofChar '-') (by decide) (by decide),
    unsigned_append ends, wholeDigits_append ends,
    List.drop_append_of_le_length (length_wholeDigits_le (unsigned t)),
    fractionDigits_append ends, afterFraction_append ends, readExponent?_append ends]

/-! ## Scalars -/

/-- A word or a number that was read to its end is read before anything that may stand behind
    it, too. -/
theorem readScalar_append (ends : Ends rest) {t : Text} {j : Json} {cur : Cursor} {m : Nat}
    (read : readScalar ⟨t, m⟩ = .ok (j, cur)) (whole : cur.rest = []) (n : Nat) :
    readScalar ⟨t ++ rest, n⟩ = .ok (j, ⟨rest, n + t.length⟩) := by
  have advance : ∀ width, width ≤ t.length → t.drop width = [] →
      Cursor.advance ⟨t ++ rest, n⟩ width = ⟨rest, n + t.length⟩ := by
    intro width fits finished
    have all : width = t.length := Nat.le_antisymm fits (List.drop_eq_nil_iff.1 finished)
    rw [Cursor.advance, all, List.drop_left]
  simp only [readScalar, readWord?_append ends, readNumeral?_append ends] at read ⊢
  cases word : readWord? t with
  | some found =>
    simp only [word] at read ⊢
    cases read
    rw [advance _ (length_readWord?_le word) whole]
  | none =>
    simp only [word] at read ⊢
    cases number : readNumeral? t with
    | none =>
      rw [number] at read
      cases read
    | some numeral =>
      simp only [number] at read ⊢
      cases value : numeral.value with
      | error e =>
        rw [value] at read
        cases read
      | ok k =>
        rw [value] at read
        cases read
        rw [advance _ (length_readNumeral?_le number) whole]

/-! ## Blanks -/

theorem skipSpaces_of_visible {t : Text} {n : Nat}
    (visible : ∀ c, t.head? = some c → isSpace c = false) :
    Cursor.skipSpaces ⟨t, n⟩ = ⟨t, n⟩ := by
  cases t with
  | nil => rfl
  | cons c t => simp [Cursor.skipSpaces, Cursor.advance, visible c rfl]

/-! ## Written words and numbers -/

/-- The code points that words and numbers are written with. -/
def isScalarChar (c : CodePoint) : Bool :=
  c.isNameChar || c.val == 0x2B || c.val == 0x2D || c.val == 0x2E

def Scalar (t : Text) : Prop := ∀ c ∈ t, isScalarChar c = true

instance (t : Text) : Decidable (Scalar t) :=
  List.decidableBAll (fun c => isScalarChar c = true) t

theorem Scalar.append {t u : Text} (front : Scalar t) (back : Scalar u) : Scalar (t ++ u) :=
  List.forall_mem_append.2 ⟨front, back⟩

theorem isScalarChar_of_isDigit {c : CodePoint} (digit : c.isDigit = true) :
    isScalarChar c = true := by
  simp only [isScalarChar, CodePoint.isNameChar, digit, Bool.or_true, Bool.true_or]

theorem isSpace_of_isScalarChar {c : CodePoint} (scalar : isScalarChar c = true) :
    isSpace c = false := by
  cases space : isSpace c with
  | false => rfl
  | true =>
    simp only [isSpace, isScalarChar, CodePoint.isNameChar, CodePoint.isLowerLetter,
      CodePoint.isUpperLetter, CodePoint.isDigit, Bool.or_eq_true, Bool.and_eq_true, beq_iff_eq,
      decide_eq_true_eq] at space scalar
    omega

theorem scalar_ofNat (n : Nat) : Scalar (Text.ofNat n) :=
  fun _ member => isScalarChar_of_isDigit (Text.isDigit_of_mem_ofNat member)

theorem scalar_ofInt (n : Int) : Scalar (Text.ofInt n) := by
  cases n with
  | ofNat n => exact scalar_ofNat n
  | negSucc n => exact List.forall_mem_cons.2 ⟨by decide, scalar_ofNat (n + 1)⟩

theorem scalar_zeros (n : Nat) : Scalar (Number.zeros n) := by
  intro c member
  rw [List.eq_of_mem_replicate member]
  decide

theorem scalar_paddedDigits (count n : Nat) : Scalar (Number.paddedDigits count n) :=
  (scalar_zeros _).append (scalar_ofNat n)

theorem scalar_sign (negative : Bool) : Scalar (Number.sign negative) := by
  cases negative <;> decide

theorem scalar_decimal (l : Number.Layout) (d : Number.Decimal) : Scalar (l.decimal d) := by
  have digits := scalar_paddedDigits d.count d.digits
  have front : ∀ n, Scalar ((Number.paddedDigits d.count d.digits).take n) :=
    fun _ c member => digits c (List.mem_of_mem_take member)
  have back : ∀ n, Scalar ((Number.paddedDigits d.count d.digits).drop n) :=
    fun _ c member => digits c (List.mem_of_mem_drop member)
  have point : Scalar (Text.ofString ".") := by decide
  unfold Number.Layout.decimal
  split
  · split
    · exact (((scalar_zeros 1).append point).append (scalar_zeros _)).append digits
    · split
      · exact ((digits.append (scalar_zeros _)).append point).append (scalar_zeros 1)
      · exact ((front _).append point).append (back _)
  · refine (Scalar.append ?_ ?_).append (scalar_paddedDigits 2 _)
    · split
      · exact digits
      · exact ((front 1).append point).append (back 1)
    · split <;> decide

theorem scalar_double (x : Binary64) : Scalar (numberLayout.double x) := by
  cases x with
  | undefined => decide
  | infinite negative => exact (scalar_sign negative).append (by decide)
  | finite negative m e =>
    refine (scalar_sign negative).append ?_
    by_cases zero : m = 0
    · rw [if_pos zero]
      decide
    · rw [if_neg zero]
      exact scalar_decimal _ _

/-! ## Reading them -/

theorem readWord?_ofInt (n : Int) : readWord? (Text.ofInt n) = none := by
  -- Every word has a letter.
  have letters : words.all (fun w => w.1.any fun c => !c.isDigit && c != CodePoint.ofChar '-') := by
    decide
  have digits : ∀ c ∈ Text.ofInt n, (!c.isDigit && c != CodePoint.ofChar '-') = false := by
    intro c member
    cases n with
    | ofNat n => simp [Text.isDigit_of_mem_ofNat member]
    | negSucc n =>
      rcases List.mem_cons.1 member with rfl | digit
      · simp
      · simp [Text.isDigit_of_mem_ofNat digit]
  rw [readWord?, Option.map_eq_none_iff, List.find?_eq_none]
  intro w member starts
  obtain ⟨c, isIn, letter⟩ := List.any_eq_true.1 (List.all_eq_true.1 letters w member)
  rw [digits c ((List.isPrefixOf_iff_prefix.1 starts).subset isIn)] at letter
  cases letter

theorem wholeDigits_ofNat (n : Nat) : wholeDigits (Text.ofNat n) = Text.ofNat n := by
  unfold wholeDigits
  split
  next zero =>
    rw [Text.eq_zero_of_head_ofNat (beq_iff_eq.1 zero), Text.ofNat, if_pos (by decide)]
    rfl
  next =>
    have all : (Text.ofNat n ++ []).takeWhile CodePoint.isDigit = Text.ofNat n ++ [] :=
      List.takeWhile_append_of_pos fun _ member => Text.isDigit_of_mem_ofNat member
    rwa [List.append_nil] at all

theorem unsigned_ofInt (n : Int) : unsigned (Text.ofInt n) = Text.ofNat n.natAbs := by
  cases n with
  | negSucc n => rfl
  | ofNat n =>
    refine if_neg fun sign => ?_
    cases Text.isDigit_of_mem_ofNat (List.mem_of_head? (beq_iff_eq.1 sign))

/-- A whole number is read as its digits, without a point and an exponent. -/
theorem readNumeral?_ofInt (n : Int) :
    readNumeral? (Text.ofInt n) =
      some ⟨(Text.ofInt n).head? == some (CodePoint.ofChar '-'), Text.ofNat n.natAbs, [], none,
        (Text.ofInt n).length⟩ := by
  have sign := length_unsigned (Text.ofInt n)
  rw [unsigned_ofInt] at sign
  rw [readNumeral?_eq, unsigned_ofInt, wholeDigits_ofNat]
  dsimp only
  rw [List.drop_length, if_neg (Text.ofNat_ne_nil _), sign]
  rfl

theorem readScalar_ofInt {n : Int} (small : (Text.ofNat n.natAbs).length ≤ maxDigits) (m : Nat) :
    ∃ cur, readScalar ⟨Text.ofInt n, m⟩ = .ok (.int n, cur) ∧ cur.rest = [] := by
  refine ⟨Cursor.advance ⟨Text.ofInt n, m⟩ (Text.ofInt n).length, ?_, List.drop_length⟩
  have value : (if (Text.ofInt n).head? == some (CodePoint.ofChar '-') then -(n.natAbs : Int)
      else n.natAbs) = n := by
    cases n with
    | negSucc n => rfl
    | ofNat n =>
      refine if_neg fun sign => ?_
      cases Text.isDigit_of_mem_ofNat (List.mem_of_head? (beq_iff_eq.1 sign))
  simp only [readScalar, readWord?_ofInt, readNumeral?_ofInt, Numeral.value, true_and, if_true,
    if_neg (Nat.not_lt.2 small), Text.decimalValue_ofNat, value]

/-- A value that is written with such code points only is read as a word or a number. -/
theorem readValue_scalar {t : Text} (scalar : Scalar t) (filled : t ≠ []) (rest : Text)
    (fuel n : Nat) : readValue (fuel + 1) ⟨t ++ rest, n⟩ = readScalar ⟨t ++ rest, n⟩ := by
  cases t with
  | nil => exact absurd rfl filled
  | cons c t =>
    have first := scalar c List.mem_cons_self
    have other : ∀ d, isScalarChar d = false → c ≠ d := by
      rintro d no rfl
      rw [first] at no
      cases no
    rw [readValue, List.cons_append]
    simp only [other _ (show isScalarChar '"' = false by decide),
      other _ (show isScalarChar '\x7b' = false by decide),
      other _ (show isScalarChar '[' = false by decide), if_false]

theorem rest_readScalar {t : Text} {j : Json} {cur : Cursor} {m : Nat}
    (read : readScalar ⟨t, m⟩ = .ok (j, cur)) : ∃ width, cur.rest = t.drop width := by
  unfold readScalar at read
  split at read
  · cases read
    exact ⟨_, rfl⟩
  · split at read
    · cases read
    · split at read
      · cases read
        exact ⟨_, rfl⟩
      · cases read

theorem readDocument_of_read {t : Text} {j : Json} (reads : read t = .ok j) :
    readDocument t = .ok j := by
  unfold read at reads
  split at reads
  next k same =>
    cases reads
    exact same
  next => cases reads

/-- What a document reads as that is a word or a number, it reads as to its end. -/
theorem readScalar_of_read {t : Text} {j : Json} (scalar : Scalar t) (reads : read t = .ok j) :
    ∃ cur, readScalar ⟨t, 0⟩ = .ok (j, cur) ∧ cur.rest = [] := by
  have visible : ∀ u : Text, (∀ c ∈ u, c ∈ t) → ∀ c, u.head? = some c → isSpace c = false :=
    fun u within c front => isSpace_of_isScalarChar (scalar c (within c (List.mem_of_head? front)))
  have filled : t ≠ [] := by
    rintro rfl
    cases reads
  have reading := readDocument_of_read reads
  unfold readDocument at reading
  split at reading
  next => cases reading
  next =>
    have value := readValue_scalar scalar filled [] (2 * t.length + 1) 0
    rw [List.append_nil] at value
    rw [skipSpaces_of_visible (visible t fun _ member => member), value] at reading
    split at reading
    next => cases reading
    next k cur read =>
      obtain ⟨width, left⟩ := rest_readScalar read
      have still : cur.skipSpaces = cur :=
        skipSpaces_of_visible (visible cur.rest fun c member =>
          List.mem_of_mem_drop (left ▸ member))
      dsimp only at reading
      rw [still] at reading
      split at reading
      next finished =>
        cases reading
        exact ⟨cur, read, finished⟩
      next => cases reading

end Arabize.Json
