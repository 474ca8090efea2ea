import Arabize.Proofs.Service.Forms

/-! # Fences in strings

Fences are taken out of an answer before a block is looked for, wherever they stand.  An object
can have them in its strings only, where they are plain code points; so what is left is still an
object, of shorter strings (`unfence_object`).

One thing about strings needs care: where a fence stood between the escapes of an upper and a lower
half, these have become a pair.
-/

namespace Arabize.Json

variable {c d : CodePoint} {s b t u front rest : Text}

/-! ## Beginnings of a body -/

/-- Code points that are no escapes stand for themselves. -/
theorem spellsBody_drop (spells : SpellsBody s (front ++ b)) (plain : CodePoint.ofChar '\\' ∉ front) :
    ∃ s', s = front ++ s' ∧ SpellsBody s' b := by
  induction front generalizing s with
  | nil => exact ⟨s, rfl, spells⟩
  | cons x front ih =>
    rw [List.mem_cons, not_or] at plain
    generalize same : x :: front ++ b = body at spells
    cases spells with
    | nil => cases same
    | plain _ _ _ spells =>
      cases same
      obtain ⟨s', rfl, behind⟩ := ih spells plain.2
      exact ⟨s', rfl, behind⟩
    | short => exact absurd (List.cons.inj same).1.symm plain.1
    | wide escape =>
      obtain ⟨digits, rfl, _⟩ := escape
      exact absurd (List.cons.inj same).1.symm plain.1
    | pair _ escape =>
      obtain ⟨digits, rfl, _⟩ := escape
      exact absurd (List.cons.inj same).1.symm plain.1

theorem WideEscape.val_eq (escape : WideEscape c t) (also : WideEscape d t) : c.val = d.val := by
  have same := hex4?_drop escape []
  rw [hex4?_drop also] at same
  exact (Option.some.inj same).symm

/-- A body that begins with the escape of a lower half spells this half first. -/
theorem spellsBody_low (spells : SpellsBody s (u ++ b)) (escape : WideEscape d u)
    (low : d.isLowSurrogate = true) : ∃ s', s = d :: s' ∧ SpellsBody s' b := by
  generalize same : u ++ b = body at spells
  cases spells with
  | nil =>
    obtain ⟨digits, rfl, _⟩ := escape
    cases same
  | plain _ bare =>
    obtain ⟨digits, rfl, _⟩ := escape
    cases same
    exact absurd rfl bare
  | short listed =>
    obtain ⟨digits, rfl, _⟩ := escape
    cases same
    exact absurd rfl (unescape?_of_mem listed).1
  | wide other _ behind =>
    obtain ⟨rfl, rfl⟩ := List.append_inj same (escape.length_eq.trans other.length_eq.symm)
    obtain rfl : d = _ := Fin.ext (escape.val_eq other)
    exact ⟨_, rfl, behind⟩
  | @pair x _ _ _ _ _ upper =>
    obtain ⟨rfl, _⟩ := List.append_inj same (escape.length_eq.trans upper.length_eq.symm)
    have value := escape.val_eq upper
    have high := x.isHighSurrogate_upperHalf
    simp only [CodePoint.isHighSurrogate, CodePoint.isLowSurrogate, Bool.and_eq_true,
      decide_eq_true_eq] at high low
    omega

/-- Two halves are those of a code point past the first plane. -/
theorem exists_joined (high : c.isHighSurrogate = true) (low : d.isLowSurrogate = true) :
    ∃ x : CodePoint, 0xFFFF < x.val ∧ x.upperHalf = c ∧ x.lowerHalf = d := by
  simp only [CodePoint.isHighSurrogate, CodePoint.isLowSurrogate, Bool.and_eq_true,
    decide_eq_true_eq] at high low
  obtain ⟨x, value⟩ : ∃ x : CodePoint, x.val = joinPair c.val d.val :=
    ⟨CodePoint.ofNat _, Nat.mod_eq_of_lt (by unfold joinPair; omega)⟩
  unfold joinPair at value
  refine ⟨x, by omega, Fin.ext ?_, Fin.ext ?_⟩
  · rw [CodePoint.val_upperHalf]
    omega
  · rw [CodePoint.val_lowerHalf]
    omega

end Arabize.Json

namespace Arabize.Answer

open Json (SpellsBody SpellsText SpellsField SpellsString Enclosed Listed Spaces WideEscape OpensLow)

variable {f : Text → Text} {c : CodePoint} {s t u b k q w : Text}

/-! ## Strings that lose fences -/

/-- What is left of a part is a part as well, and a smaller one unless nothing is taken out. -/
def Thins {α : Type} (f : Text → Text) (size : α → Nat) (spells : α → Text → Prop) (x : α)
    (t w : Text) : Prop :=
  ∃ x' t', spells x' t' ∧ f (t ++ w) = t' ++ f w ∧ (x' = x ∧ t' = t ∨ size x' < size x)

theorem Thins.prepend (thins : Thins f List.length SpellsBody s b w)
    (kept : f (u ++ (b ++ w)) = u ++ f (b ++ w))
    (spells : ∀ {s' b'}, SpellsBody s' b' → SpellsBody (c :: s') (u ++ b')) :
    Thins f List.length SpellsBody (c :: s) (u ++ b) w := by
  obtain ⟨s', b', behind, same, shorter⟩ := thins
  refine ⟨c :: s', u ++ b', spells behind, ?_, ?_⟩
  · rw [List.append_assoc, kept, same, List.append_assoc]
  · exact shorter.imp (fun ⟨x, y⟩ => ⟨congrArg _ x, congrArg _ y⟩) Nat.succ_lt_succ

/-- An escaped upper half may come to stand before a lower half, and is joined with it then. -/
theorem Thins.wide (erasure : Erasure f) (thins : Thins f List.length SpellsBody s b w)
    (escape : WideEscape c u) (alone : c.isHighSurrogate = true → ¬ OpensLow b) :
    Thins f List.length SpellsBody (c :: s) (u ++ b) w := by
  have kept := erasure.append (not_mem_wideEscape escape) (b ++ w)
  obtain ⟨s', b', behind, same, shorter⟩ := thins
  have left : f (u ++ b ++ w) = u ++ b' ++ f w := by
    rw [List.append_assoc, kept, same, List.append_assoc]
  by_cases joins : c.isHighSurrogate = true ∧ OpensLow b'
  · obtain ⟨high, d, v, rest, rfl, second, low⟩ := joins
    have less : s'.length < s.length := by
      refine shorter.resolve_left ?_
      rintro ⟨_, rfl⟩
      exact alone high ⟨d, v, rest, rfl, second, low⟩
    obtain ⟨others, rfl, further⟩ := Json.spellsBody_low behind second low
    obtain ⟨x, past, rfl, rfl⟩ := Json.exists_joined high low
    refine ⟨x :: others, _, .pair past escape second further, left, .inr ?_⟩
    simp only [List.length_cons] at less ⊢
    omega
  · refine ⟨c :: s', u ++ b', .wide escape (not_and.1 joins) behind, left, ?_⟩
    exact shorter.imp (fun ⟨x, y⟩ => ⟨congrArg _ x, congrArg _ y⟩) Nat.succ_lt_succ

/-- A piece without quotes ends before the closing quote. -/
theorem split_before_quote {front rest : Text}
    (split : b ++ CodePoint.ofChar '"' :: w = front ++ rest)
    (noQuote : CodePoint.ofChar '"' ∉ front) :
    ∃ more, b = front ++ more ∧ rest = more ++ CodePoint.ofChar '"' :: w := by
  rcases List.append_eq_append_iff.1 split with ⟨more, rfl, same⟩ | ⟨more, rfl, same⟩
  · cases more with
    | nil => exact ⟨[], by simp, same.symm⟩
    | cons x more =>
      obtain ⟨rfl, _⟩ := List.cons.inj same
      exact absurd (List.mem_append_right b List.mem_cons_self) noQuote
  · exact ⟨more, rfl, same⟩

theorem Erasure.body (erasure : Erasure f) (spells : SpellsBody s b) (w : Text) :
    Thins f List.length SpellsBody s b (CodePoint.ofChar '"' :: w) := by
  -- A piece that is taken out may be long, so the induction is on the length.
  induction size : b.length using Nat.strong_induction_on generalizing s b with
  | _ n ih =>
    subst size
    cases spells with
    | nil => exact ⟨[], [], .nil, rfl, .inl ⟨rfl, rfl⟩⟩
    | @plain c s b quote slash visible spells =>
      have behind := ih _ (Nat.lt_succ_self _) spells rfl
      by_cases starts : fence <+: c :: (b ++ CodePoint.ofChar '"' :: w)
      · -- What goes with the fence ends in this string, between two of its code points.
        obtain ⟨front, rest, split, filled, noQuote, noSlash, dropped⟩ := erasure.take starts
        obtain ⟨more, body, rfl⟩ := split_before_quote (b := c :: b) split noQuote
        have whole := SpellsBody.plain quote slash visible spells
        rw [body] at whole ⊢
        obtain ⟨others, text, more_spells⟩ := Json.spellsBody_drop whole noSlash
        have positive := List.length_pos_iff.2 filled
        have width := congrArg List.length body
        rw [List.length_append] at width
        obtain ⟨s', b', spelled, same, shorter⟩ := ih more.length (by omega) more_spells rfl
        have bound : s'.length ≤ others.length := by
          rcases shorter with ⟨rfl, _⟩ | less
          · exact Nat.le_refl _
          · exact Nat.le_of_lt less
        refine ⟨s', b', spelled, by rw [← same, ← dropped, List.append_assoc, ← split], .inr ?_⟩
        rw [text, List.length_append]
        omega
      · exact behind.prepend (u := [c]) (erasure.keep starts) (.plain quote slash visible)
    | @short e c s b listed spells =>
      refine (ih _ ?_ spells rfl).prepend (u := [CodePoint.ofChar '\\', e])
        (erasure.append (not_mem_short listed) _) (.short listed)
      simp only [List.length_cons]
      omega
    | @wide c u s b escape alone spells =>
      refine (ih _ ?_ spells rfl).wide erasure escape alone
      rw [List.length_append, escape.length_eq]
      omega
    | @pair c t u s b past high low spells =>
      have absent : CodePoint.ofChar '`' ∉ t ++ u := by
        rw [List.mem_append, not_or]
        exact ⟨not_mem_wideEscape high, not_mem_wideEscape low⟩
      rw [← List.append_assoc]
      refine (ih _ ?_ spells rfl).prepend (erasure.append absent _) fun behind => ?_
      · rw [List.length_append, List.length_append, high.length_eq]
        omega
      · rw [List.append_assoc]
        exact .pair past high low behind

/-! ## Objects that lose fences -/

/-- How much text there is in a field. -/
def fieldSize (kv : Text × Json) : Nat := kv.1.length + (kv.2.text?.getD []).length

/-- How much text there is in the fields of an object. -/
def fieldsSize : Mapping Json → Nat
  | [] => 0
  | kv :: m => fieldSize kv + fieldsSize m

variable {m : Mapping Json} {kv : Text × Json}

theorem Erasure.text (erasure : Erasure f) (spells : SpellsText k q) (w : Text) :
    Thins f List.length SpellsText k q w := by
  obtain ⟨body, spelled, rfl⟩ := spells
  obtain ⟨k', b', behind, same, shorter⟩ := erasure.body spelled w
  refine ⟨k', _, ⟨b', behind, rfl⟩, ?_, ?_⟩
  · rw [List.cons_append, List.append_assoc, List.singleton_append,
      erasure.other _ (by decide), same, erasure.other _ (by decide)]
    simp
  · exact shorter.imp_left fun ⟨x, y⟩ => ⟨x, by rw [y]⟩

/-- No fence stands in the marks between two parts, nor in the blanks around them. -/
theorem not_mem_between {before behind : Text} (spaces : Spaces before) (further : Spaces behind)
    (mark : c ≠ CodePoint.ofChar '`') : CodePoint.ofChar '`' ∉ before ++ c :: behind := by
  rw [List.mem_append, List.mem_cons, not_or, not_or]
  exact ⟨not_mem_spaces spaces, Ne.symm mark, not_mem_spaces further⟩

theorem Erasure.field (erasure : Erasure f) (field : SpellsField SpellsString kv t) (w : Text) :
    Thins f fieldSize (SpellsField SpellsString) kv t w := by
  obtain @⟨k, q, t, before, behind, v, key, spaces, further, s, rfl, text⟩ := field
  have absent := not_mem_between spaces further (show CodePoint.ofChar ':' ≠ _ by decide)
  obtain ⟨s', t', value, same, shorter⟩ := erasure.text text w
  obtain ⟨k', q', name, first, smaller⟩ :=
    erasure.text key (before ++ CodePoint.ofChar ':' :: behind ++ (t ++ w))
  refine ⟨(k', .str s'), _, .field name spaces further ⟨s', rfl, value⟩, ?_, ?_⟩
  · rw [List.append_assoc, List.append_assoc, first, erasure.append absent, same]
    simp
  · simp only [fieldSize, Json.text?, Option.getD_some]
    rcases smaller with ⟨rfl, rfl⟩ | less
    · exact shorter.imp (fun ⟨x, y⟩ => ⟨by rw [x], by rw [y]⟩) (Nat.add_lt_add_left · _)
    · rcases shorter with ⟨rfl, _⟩ | _ <;> exact .inr (by omega)

theorem Erasure.listed (erasure : Erasure f) (listed : Listed (SpellsField SpellsString) m t)
    (w : Text) : Thins f fieldsSize (Listed (SpellsField SpellsString)) m t w := by
  induction listed with
  | @last kv t before here spaces =>
    obtain ⟨kv', t', field, same, smaller⟩ := erasure.field here (before ++ w)
    refine ⟨[kv'], t' ++ before, .last field spaces, ?_, ?_⟩
    · rw [List.append_assoc, same, erasure.append (not_mem_spaces spaces), List.append_assoc]
    · refine smaller.imp (fun ⟨x, y⟩ => ⟨by rw [x], by rw [y]⟩) fun less => ?_
      simpa [fieldsSize] using less
  | @more kv m t u before behind here spaces further _ ih =>
    have absent := not_mem_between spaces further (show CodePoint.ofChar ',' ≠ _ by decide)
    obtain ⟨m', u', others, behindSame, shorter⟩ := ih
    obtain ⟨kv', t', field, same, smaller⟩ :=
      erasure.field here (before ++ CodePoint.ofChar ',' :: behind ++ (u ++ w))
    refine ⟨kv' :: m', _, .more field spaces further others, ?_, ?_⟩
    · have split : t ++ (before ++ CodePoint.ofChar ',' :: (behind ++ u)) ++ w =
          t ++ (before ++ CodePoint.ofChar ',' :: behind ++ (u ++ w)) := by simp
      rw [split, same, erasure.append absent, behindSame]
      simp
    · rw [fieldsSize, fieldsSize]
      rcases smaller with ⟨rfl, rfl⟩ | less
      · exact shorter.imp (fun ⟨x, y⟩ => ⟨by rw [x], by rw [y]⟩) (Nat.add_lt_add_left · _)
      · rcases shorter with ⟨rfl, _⟩ | _ <;> exact .inr (by omega)

/-- What is taken out of an object leaves an object, with less text in its fields unless nothing
    is taken out. -/
theorem Erasure.enclosed (erasure : Erasure f)
    (enclosed : Enclosed '\x7b' '\x7d' (SpellsField SpellsString) m t) (w : Text) :
    Thins f fieldsSize (Enclosed '\x7b' '\x7d' (SpellsField SpellsString)) m t w := by
  cases enclosed with
  | @empty before spaces =>
    refine ⟨[], _, .empty spaces, ?_, .inl ⟨rfl, rfl⟩⟩
    rw [List.cons_append, erasure.other _ (by decide), List.append_assoc,
      erasure.append (not_mem_spaces spaces), List.singleton_append, erasure.other _ (by decide)]
    simp
  | @filled before u m spaces listed =>
    obtain ⟨m', u', others, same, smaller⟩ :=
      erasure.listed listed (CodePoint.ofChar '\x7d' :: w)
    refine ⟨m', _, .filled spaces others, ?_, smaller.imp_left fun ⟨x, y⟩ => ⟨x, by rw [y]⟩⟩
    rw [List.cons_append, erasure.other _ (by decide), List.append_assoc,
      erasure.append (not_mem_spaces spaces), List.append_assoc, List.singleton_append, same,
      erasure.other _ (by decide)]
    simp

/-! ## Answers that lose fences -/

/-- Without its fences, an object that has some is an object with less text in its fields. -/
theorem unfence_object (enclosed : Enclosed '\x7b' '\x7d' (SpellsField SpellsString) m t)
    (fenced : ¬ Unfenced t) (absent : CodePoint.ofChar '`' ∉ w) :
    ∃ m' t', Enclosed '\x7b' '\x7d' (SpellsField SpellsString) m' t' ∧
      unfence (t ++ w) = t' ++ w ∧ fieldsSize m' < fieldsSize m := by
  obtain ⟨m₁, t₁, object, first, smaller⟩ := erasure_dropFences.enclosed enclosed w
  obtain ⟨m₂, t₂, object₂, second, smallest⟩ := erasure_replaceAll.enclosed object w
  have kept := unfenced_of_not_mem absent
  rw [erasure_dropFences.unfenced kept] at first
  dsimp only at second
  rw [show Text.replaceAll w fence [] = w from erasure_replaceAll.unfenced kept] at second
  have left : unfence (t ++ w) = t₂ ++ w := by rw [unfence, first, second]
  refine ⟨m₂, t₂, object₂, left, ?_⟩
  rcases smaller with ⟨rfl, rfl⟩ | less
  · refine smallest.resolve_left ?_
    rintro ⟨_, rfl⟩
    have shorter := length_unfence_lt
      ((not_not.1 fenced).trans (List.prefix_append t₂ w).isInfix)
    rw [left] at shorter
    exact Nat.lt_irrefl _ shorter
  · rcases smallest with ⟨rfl, _⟩ | even
    · exact less
    · exact even.trans less

theorem fieldsSize_insert_le (m : Mapping Json) (key : Text) (j : Json) :
    fieldsSize (m.insert key j) ≤ fieldsSize m + fieldSize (key, j) := by
  induction m with
  | nil => simp [Mapping.insert, fieldsSize]
  | cons kv rest ih =>
    obtain ⟨k, v⟩ := kv
    rw [Mapping.insert]
    split
    next same =>
      rw [fieldsSize, fieldsSize, same]
      omega
    next =>
      rw [fieldsSize, fieldsSize]
      omega

theorem fieldsSize_update_le (m new : Mapping Json) :
    fieldsSize (m.update new) ≤ fieldsSize m + fieldsSize new := by
  induction new generalizing m with
  | nil => exact Nat.le_refl _
  | cons kv rest ih =>
    obtain ⟨k, v⟩ := kv
    have inserted := fieldsSize_insert_le m k v
    have more := ih (m.insert k v)
    rw [fieldsSize]
    exact more.trans (by omega)

theorem fieldsSize_ofPairs_le (m : Mapping Json) :
    fieldsSize (Mapping.ofPairs m) ≤ fieldsSize m := by
  have bound := fieldsSize_update_le [] m
  rwa [show fieldsSize [] = 0 from rfl, Nat.zero_add] at bound

/-- A mapping of texts that is kept of some fields holds no more text than they do. -/
theorem fieldsSize_kept_le (m : Mapping Json) :
    fieldsSize (Json.textValues (kept m)) ≤ fieldsSize m := by
  induction m with
  | nil => exact Nat.le_refl _
  | cons kv rest ih =>
    obtain ⟨k, v⟩ := kv
    have rest_le : fieldsSize (Json.textValues (kept rest)) ≤ fieldsSize ((k, v) :: rest) :=
      ih.trans (by rw [fieldsSize]; exact Nat.le_add_left _ _)
    unfold kept Json.textFields at rest_le ih ⊢
    cases text : v.text? with
    | none => rwa [List.filterMap_cons_none (by rw [text]; rfl)]
    | some t =>
      rw [List.filterMap_cons_some (by rw [text]; rfl), List.filter_cons]
      split
      · have here : fieldSize (k, .str t) = fieldSize (k, v) := by
          rw [fieldSize, fieldSize, text]
          rfl
        rw [Json.textValues, List.map_cons, fieldsSize, fieldsSize, here]
        exact Nat.add_le_add_left ih _
      · exact rest_le

end Arabize.Answer
