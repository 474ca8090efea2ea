import Arabize.Text.Utf8

/-! # Texts that have an encoding

A text without surrogates is encoded code point by code point, and decoding gives it back.
Offsets in bytes that fall between two code points are its `Boundary` offsets; between two
of them lies the encoding of a part of the text.
-/

namespace Arabize.Utf8

/-! ## Encoding -/

/-- A text without surrogates. -/
def Encodable (t : Text) : Prop := ∀ c ∈ t, c.isSurrogate = false

instance (t : Text) : Decidable (Encodable t) :=
  List.decidableBAll (fun c : CodePoint => c.isSurrogate = false) t

@[simp] theorem encodable_nil : Encodable [] := by
  intro c member
  cases member

@[simp] theorem encodable_cons {c : CodePoint} {t : Text} :
    Encodable (c :: t) ↔ c.isSurrogate = false ∧ Encodable t := by
  simp only [Encodable, List.mem_cons, forall_eq_or_imp]

@[simp] theorem encodable_append {s t : Text} :
    Encodable (s ++ t) ↔ Encodable s ∧ Encodable t := by
  simp only [Encodable, List.mem_append, or_imp, forall_and]

theorem Encodable.of_subset {s t : Text} (encodable : Encodable t) (sub : s ⊆ t) : Encodable s :=
  fun c member => encodable c (sub member)

theorem firstSurrogates_eq_none_iff (start : Nat) (t : Text) :
    firstSurrogates start t = none ↔ Encodable t := by
  induction t generalizing start with
  | nil => simp only [firstSurrogates, encodable_nil]
  | cons c t ih =>
    simp only [firstSurrogates, encodable_cons]
    cases surrogate : c.isSurrogate with
    | true => simp only [if_true, reduceCtorEq, Bool.true_eq_false, false_and]
    | false => simp only [Bool.false_eq_true, if_false, true_and, ih]

/-- The texts that have an encoding are those without surrogates. -/
theorem encode_eq_ok_iff {t : Text} {bytes : Bytes} :
    encode t = .ok bytes ↔ Encodable t ∧ bytes = encodeLoose t := by
  rw [← firstSurrogates_eq_none_iff 0]
  unfold encode
  cases firstSurrogates 0 t with
  | none => simp only [Except.ok.injEq, true_and, eq_comm]
  | some e => simp only [reduceCtorEq, false_and]

theorem encode_of_encodable {t : Text} (encodable : Encodable t) :
    encode t = .ok (encodeLoose t) :=
  encode_eq_ok_iff.2 ⟨encodable, rfl⟩

@[simp] theorem encodeLoose_nil : encodeLoose [] = [] := rfl

@[simp] theorem encodeLoose_cons (c : CodePoint) (t : Text) :
    encodeLoose (c :: t) = encodeChar c ++ encodeLoose t := List.flatMap_cons

@[simp] theorem encodeLoose_append (s t : Text) :
    encodeLoose (s ++ t) = encodeLoose s ++ encodeLoose t := List.flatMap_append

theorem length_encodeLoose (t : Text) : (encodeLoose t).length = size t := by
  induction t with
  | nil => rfl
  | cons c t ih => rw [encodeLoose_cons, List.length_append, ih, size, charSize]

theorem size_append (s t : Text) : size (s ++ t) = size s + size t := by
  rw [← length_encodeLoose, encodeLoose_append, List.length_append, length_encodeLoose,
    length_encodeLoose]

theorem charSize_pos (c : CodePoint) : 0 < charSize c := by
  simp only [charSize, encodeChar]
  split
  · exact Nat.succ_pos _
  · split
    · exact Nat.succ_pos _
    · split <;> exact Nat.succ_pos _

/-! ## Decoding -/

theorem toNat_ofNat_of_lt {n : Nat} (small : n < 0x100) : (UInt8.ofNat n).toNat = n := by
  rw [UInt8.toNat_ofNat']
  exact Nat.mod_eq_of_lt small

theorem isTail_iff (b : UInt8) : isTail b = true ↔ 0x80 ≤ b.toNat ∧ b.toNat ≤ 0xBF := by
  simp only [isTail, Bool.and_eq_true, decide_eq_true_eq, UInt8.le_iff_toNat_le]
  exact Iff.rfl

theorem isTail_ofNat {n : Nat} (small : n < 0x40) : isTail (UInt8.ofNat (0x80 + n)) = true := by
  rw [isTail_iff, toNat_ofNat_of_lt (by omega)]
  omega

theorem tailBits_ofNat {n : Nat} (small : n < 0x40) : tailBits (UInt8.ofNat (0x80 + n)) = n := by
  rw [tailBits, toNat_ofNat_of_lt (by omega)]
  omega

theorem isSecond_iff (lead b : UInt8) :
    isSecond lead b = true ↔ isTail b = true ∧ (lead.toNat = 0xE0 → 0xA0 ≤ b.toNat) ∧
      (lead.toNat = 0xED → b.toNat ≤ 0x9F) ∧ (lead.toNat = 0xF0 → 0x90 ≤ b.toNat) ∧
      (lead.toNat = 0xF4 → b.toNat ≤ 0x8F) := by
  simp only [isSecond, Bool.and_eq_true, beq_iff_eq, ← UInt8.toNat_inj]
  split
  next e0 => simp_all [UInt8.le_iff_toNat_le]
  next =>
    split
    next ed => simp_all [UInt8.le_iff_toNat_le]
    next =>
      split
      next f0 => simp_all [UInt8.le_iff_toNat_le]
      next =>
        split
        next f4 => simp_all [UInt8.le_iff_toNat_le]
        next => simp_all

theorem isSurrogate_eq_false_iff (c : CodePoint) :
    c.isSurrogate = false ↔ c.val < 0xD800 ∨ 0xDFFF < c.val := by
  simp only [CodePoint.isSurrogate, Bool.and_eq_false_iff, decide_eq_false_iff_not, Nat.not_le]

theorem isSurrogate_ofChar (c : Char) : (CodePoint.ofChar c).isSurrogate = false := by
  have valid : c.toNat.isValidChar := c.valid
  rw [isSurrogate_eq_false_iff]
  simp only [CodePoint.ofChar, CodePoint.ofNat, Fin.ofNat]
  rcases valid with low | ⟨high, small⟩ <;> omega

theorem encodable_ofString (s : String) : Encodable (Text.ofString s) := by
  intro c member
  obtain ⟨char, _, rfl⟩ := List.mem_map.1 member
  exact isSurrogate_ofChar char

theorem codePoint_ofNat_eq {n : Nat} {c : CodePoint} (same : n = c.val) :
    CodePoint.ofNat n = c := by
  subst same
  exact Fin.ofNat_val_eq_self c

/-- A byte and what is behind it begin with one code point, which takes so many bytes. -/
inductive Begins : UInt8 → Bytes → CodePoint → Nat → Prop
  | one {lead rest point} : lead.toNat < 0x80 → CodePoint.ofNat lead.toNat = point →
      Begins lead rest point 1
  | two {lead b rest point} : 0xC2 ≤ lead.toNat → lead.toNat < 0xE0 → isSecond lead b = true →
      CodePoint.ofNat (lead.toNat % 0x20 * 0x40 + tailBits b) = point →
      Begins lead (b :: rest) point 2
  | three {lead b c rest point} : 0xE0 ≤ lead.toNat → lead.toNat < 0xF0 →
      isSecond lead b = true → isTail c = true →
      CodePoint.ofNat (lead.toNat % 0x10 * 0x1000 + tailBits b * 0x40 + tailBits c) = point →
      Begins lead (b :: c :: rest) point 3
  | four {lead b c d rest point} : 0xF0 ≤ lead.toNat → lead.toNat ≤ 0xF4 →
      isSecond lead b = true → isTail c = true → isTail d = true →
      CodePoint.ofNat (lead.toNat % 0x08 * 0x40000 + tailBits b * 0x1000 + tailBits c * 0x40
        + tailBits d) = point →
      Begins lead (b :: c :: d :: rest) point 4

/-- Nothing else is read as a code point. -/
theorem decodeOne_eq_ok_iff {lead : UInt8} {rest : Bytes} {point : CodePoint} {width : Nat} :
    decodeOne lead rest = .ok (point, width) ↔ Begins lead rest point width := by
  constructor
  · intro decoded
    simp only [decodeOne] at decoded
    split at decoded
    next small =>
      cases decoded
      exact .one small rfl
    split at decoded
    · cases decoded
    next started =>
    simp only [Bool.or_eq_true, decide_eq_true_eq, not_or, Nat.not_lt] at started
    split at decoded
    · cases decoded
    split at decoded
    · cases decoded
    next second =>
    rw [Bool.not_eq_true', Bool.not_eq_false] at second
    split at decoded
    next two =>
      cases decoded
      exact .two started.1 two second rfl
    next more =>
    split at decoded
    · cases decoded
    split at decoded
    · cases decoded
    next third =>
    rw [Bool.not_eq_true', Bool.not_eq_false] at third
    split at decoded
    next three =>
      cases decoded
      exact .three (Nat.not_lt.1 more) three second third rfl
    next most =>
    split at decoded
    · cases decoded
    split at decoded
    · cases decoded
    next fourth =>
    rw [Bool.not_eq_true', Bool.not_eq_false] at fourth
    cases decoded
    exact .four (Nat.not_lt.1 most) started.2 second third fourth rfl
  · intro begins
    cases begins with
    | one small same =>
      simp only [decodeOne]
      rw [if_pos small, same]
    | two low high second same =>
      simp only [decodeOne, second, same]
      rw [if_neg (by omega), if_neg (by simp; omega), if_neg (by simp), if_pos high]
    | three low high second third same =>
      simp only [decodeOne, second, third, same]
      rw [if_neg (by omega), if_neg (by simp; omega), if_neg (by simp), if_neg (by omega),
        if_neg (by simp), if_pos high]
    | four low high second third fourth same =>
      simp only [decodeOne, second, third, fourth, same]
      rw [if_neg (by omega), if_neg (by simp; omega), if_neg (by simp), if_neg (by omega),
        if_neg (by simp), if_neg (by omega), if_neg (by simp)]

/-- The bytes of a code point begin with that code point, whatever follows. -/
theorem decodeOne_encodeChar {c : CodePoint} (plain : c.isSurrogate = false) (more : Bytes) :
    ∃ lead tail, encodeChar c = lead :: tail ∧
      decodeOne lead (tail ++ more) = .ok (c, tail.length + 1) := by
  rw [isSurrogate_eq_false_iff] at plain
  have bound : c.val < 0x110000 := c.isLt
  have low : c.val % 0x40 < 0x40 := Nat.mod_lt _ (by decide)
  have middle : c.val / 0x40 % 0x40 < 0x40 := Nat.mod_lt _ (by decide)
  have high : c.val / 0x1000 % 0x40 < 0x40 := Nat.mod_lt _ (by decide)
  simp only [encodeChar, decodeOne_eq_ok_iff]
  -- Up to four bytes, by the size of the code point.
  split
  next one =>
    have lead : (UInt8.ofNat c.val).toNat = c.val := toNat_ofNat_of_lt (by omega)
    exact ⟨_, _, rfl, .one (by omega) (codePoint_ofNat_eq lead)⟩
  split
  next two =>
    have lead : (UInt8.ofNat (0xC0 + c.val / 0x40)).toNat = 0xC0 + c.val / 0x40 :=
      toNat_ofNat_of_lt (by omega)
    refine ⟨_, _, rfl, .two (by omega) (by omega) ?_ (codePoint_ofNat_eq ?_)⟩
    · rw [isSecond_iff, lead]
      exact ⟨isTail_ofNat low, by omega, by omega, by omega, by omega⟩
    · rw [lead, tailBits_ofNat low]
      omega
  split
  next three =>
    have lead : (UInt8.ofNat (0xE0 + c.val / 0x1000)).toNat = 0xE0 + c.val / 0x1000 :=
      toNat_ofNat_of_lt (by omega)
    refine ⟨_, _, rfl, .three (by omega) (by omega) ?_ (isTail_ofNat low) (codePoint_ofNat_eq ?_)⟩
    · rw [isSecond_iff, lead, toNat_ofNat_of_lt (by omega)]
      exact ⟨isTail_ofNat middle, by omega, by omega, by omega, by omega⟩
    · rw [lead, tailBits_ofNat middle, tailBits_ofNat low]
      omega
  next four =>
    have lead : (UInt8.ofNat (0xF0 + c.val / 0x40000)).toNat = 0xF0 + c.val / 0x40000 :=
      toNat_ofNat_of_lt (by omega)
    refine ⟨_, _, rfl, .four (by omega) (by omega) ?_ (isTail_ofNat middle) (isTail_ofNat low)
      (codePoint_ofNat_eq ?_)⟩
    · rw [isSecond_iff, lead, toNat_ofNat_of_lt (by omega)]
      exact ⟨isTail_ofNat high, by omega, by omega, by omega, by omega⟩
    · rw [lead, tailBits_ofNat high, tailBits_ofNat middle, tailBits_ofNat low]
      omega

/-- Bytes that belong to a code point already decoded are passed over. -/
theorem decodeFrom_skip (start : Nat) (tail more : Bytes) :
    decodeFrom start tail.length (tail ++ more) = decodeFrom (start + tail.length) 0 more := by
  induction tail generalizing start with
  | nil => rfl
  | cons b tail ih =>
    simp only [List.length_cons, List.cons_append, decodeFrom, ih]
    congr 1
    omega

theorem decodeFrom_encodeLoose {t : Text} (encodable : Encodable t) (start : Nat) :
    decodeFrom start 0 (encodeLoose t) = .ok t := by
  induction t generalizing start with
  | nil => rfl
  | cons c t ih =>
    rw [encodable_cons] at encodable
    obtain ⟨lead, tail, bytes, decoded⟩ := decodeOne_encodeChar encodable.1 (encodeLoose t)
    rw [encodeLoose_cons, bytes, List.cons_append]
    simp only [decodeFrom, decoded, Nat.add_sub_cancel, decodeFrom_skip, ih encodable.2]

theorem decode_encodeLoose {t : Text} (encodable : Encodable t) :
    decode (encodeLoose t) = .ok t :=
  decodeFrom_encodeLoose encodable 0

theorem isSurrogate_ofNat {n : Nat} (plain : n < 0xD800 ∨ (0xDFFF < n ∧ n < 0x110000)) :
    (CodePoint.ofNat n).isSurrogate = false := by
  rw [isSurrogate_eq_false_iff]
  simp only [CodePoint.ofNat, Fin.ofNat]
  rcases plain with low | ⟨high, small⟩ <;> omega

/-- No surrogate is read, because of the bounds that there are on a second byte. -/
theorem Begins.isSurrogate {lead : UInt8} {rest : Bytes} {point : CodePoint} {width : Nat}
    (begins : Begins lead rest point width) : point.isSurrogate = false := by
  have bits : ∀ {lead b}, isSecond lead b = true → tailBits b = b.toNat - 0x80 := by
    intro lead b second
    have tail := (isTail_iff b).1 ((isSecond_iff lead b).1 second).1
    rw [tailBits]
    omega
  have small : ∀ b, tailBits b < 0x40 := fun b => Nat.mod_lt _ (by decide)
  cases begins with
  | one low same =>
    rw [← same]
    exact isSurrogate_ofNat (.inl (by omega))
  | @two b _ _ low high second same =>
    have := small b
    rw [← same]
    exact isSurrogate_ofNat (.inl (by omega))
  | @three b c _ _ low high second third same =>
    have := small c
    obtain ⟨tail, e0, ed, _⟩ := (isSecond_iff lead b).1 second
    rw [isTail_iff] at tail
    rw [← same, bits second]
    exact isSurrogate_ofNat (by omega)
  | @four b c d _ _ low high second third fourth same =>
    have := small c
    have := small d
    obtain ⟨tail, _, _, f0, f4⟩ := (isSecond_iff lead b).1 second
    rw [isTail_iff] at tail
    rw [← same, bits second]
    exact isSurrogate_ofNat (by omega)

theorem encodable_decodeFrom {bytes : Bytes} {start skip : Nat} {t : Text}
    (decoded : decodeFrom start skip bytes = .ok t) : Encodable t := by
  induction bytes generalizing start skip t with
  | nil =>
    cases skip <;> cases decoded <;> exact encodable_nil
  | cons b bytes ih =>
    cases skip with
    | succ skip => exact ih decoded
    | zero =>
      simp only [decodeFrom] at decoded
      split at decoded
      next => cases decoded
      next c width first =>
        split at decoded
        next rest later =>
          cases decoded
          exact encodable_cons.2 ⟨(decodeOne_eq_ok_iff.1 first).isSurrogate, ih later⟩
        next => cases decoded

/-- What is decoded from bytes can be encoded. -/
theorem encodable_decode {bytes : Bytes} {t : Text} (decoded : decode bytes = .ok t) :
    Encodable t :=
  encodable_decodeFrom decoded

/-! ## Boundaries -/

/-- An offset in bytes between two code points of a text, or at one of its ends. -/
def Boundary (content : Text) (n : Nat) : Prop :=
  ∃ before after, content = before ++ after ∧ size before = n

theorem Boundary.zero (content : Text) : Boundary content 0 := ⟨[], content, rfl, rfl⟩

theorem boundary_iff (content : Text) (n : Nat) :
    Boundary content n ↔ ∃ i ∈ List.range (content.length + 1), size (content.take i) = n := by
  constructor
  · rintro ⟨before, after, rfl, rfl⟩
    refine ⟨before.length, List.mem_range.2 ?_, by rw [List.take_left]⟩
    rw [List.length_append]
    omega
  · rintro ⟨i, _, rfl⟩
    exact ⟨_, content.drop i, (List.take_append_drop i content).symm, rfl⟩

instance (content : Text) (n : Nat) : Decidable (Boundary content n) :=
  decidable_of_iff _ (boundary_iff content n).symm

/-- The beginning of a text that takes fewer bytes is a beginning of the other one. -/
theorem append_eq_append_of_size_le {a b c e : Text} (same : a ++ b = c ++ e)
    (shorter : size a ≤ size c) : ∃ between, c = a ++ between ∧ b = between ++ e := by
  rcases List.append_eq_append_iff.1 same with ⟨between, rfl, rfl⟩ | ⟨between, rfl, rfl⟩
  · exact ⟨between, rfl, rfl⟩
  · cases between with
    | nil => exact ⟨[], by simp, by simp⟩
    | cons x between =>
      have := charSize_pos x
      simp only [size_append, size] at shorter
      omega

/-- Two boundaries cut a text in three. -/
theorem Boundary.split {content : Text} {m n : Nat} (start : Boundary content m)
    (stop : Boundary content n) (ordered : m ≤ n) :
    ∃ before between after, content = before ++ between ++ after ∧ size before = m ∧
      size before + size between = n := by
  obtain ⟨a, b, rfl, rfl⟩ := start
  obtain ⟨c, e, same, rfl⟩ := stop
  obtain ⟨between, rfl, rfl⟩ := append_eq_append_of_size_le same ordered
  exact ⟨a, between, e, by rw [List.append_assoc], rfl, (size_append a between).symm⟩

end Arabize.Utf8
