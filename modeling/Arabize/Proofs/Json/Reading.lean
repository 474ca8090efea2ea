import Arabize.Proofs.Json.Scalar
import Arabize.Proofs.Json.Strings
import Arabize.Proofs.Mapping

/-! # Reading part by part

The reader goes from one part of a value to the next and passes over the blanks between them.
Each lemma here says what one part takes of the text, whatever stands behind it: given what is
read of an item or of a field, `readItems_last` and its like say where the reader stands then.
-/

namespace Arabize.Json

variable {x v : Json} {seen : List Json} {k t q rest before behind : Text} {cur : Cursor}
  {fuel n : Nat}

/-! ## What a value starts with -/

/-- The code points that a value may start with. -/
def opensValue (c : CodePoint) : Bool :=
  isScalarChar c || c == CodePoint.ofChar '"' || c == CodePoint.ofChar '['
    || c == CodePoint.ofChar '\x7b'

def Opens (t : Text) : Prop := ∃ c u, t = c :: u ∧ opensValue c = true

theorem Opens.append (opens : Opens t) (u : Text) : Opens (t ++ u) := by
  obtain ⟨c, v, rfl, front⟩ := opens
  exact ⟨c, v ++ u, rfl, front⟩

theorem Opens.head_ne (opens : Opens t) {c : CodePoint} (other : opensValue c = false) :
    t.head? ≠ some c := by
  obtain ⟨d, u, rfl, front⟩ := opens
  rintro same
  rw [Option.some.inj same, other] at front
  cases front

theorem opensValue_of_isSpace {c : CodePoint} (space : isSpace c = true) :
    opensValue c = false := by
  have noScalar : isScalarChar c = false := by
    cases scalar : isScalarChar c with
    | false => rfl
    | true =>
      rw [isSpace_of_isScalarChar scalar] at space
      cases space
  have other : ∀ d : CodePoint, isSpace d = false → (c == d) = false := by
    intro d visible
    refine beq_eq_false_iff_ne.2 ?_
    rintro rfl
    rw [space] at visible
    cases visible
  rw [opensValue, noScalar, other _ (by decide), other _ (by decide), other _ (by decide)]
  rfl

theorem Opens.visible (opens : Opens t) : ∀ c, t.head? = some c → isSpace c = false := by
  intro c front
  cases space : isSpace c with
  | false => rfl
  | true => exact absurd front (opens.head_ne (opensValue_of_isSpace space))

theorem opens_scalar (scalar : Scalar t) (filled : t ≠ []) : Opens t := by
  obtain ⟨c, u, rfl⟩ := List.exists_cons_of_ne_nil filled
  exact ⟨c, u, rfl, by rw [opensValue, scalar c List.mem_cons_self]; rfl⟩

/-! ## Blanks -/

/-- Blanks that may stand between two parts. -/
def Spaces (t : Text) : Prop := ∀ c ∈ t, isSpace c = true

theorem spaces_nil : Spaces [] := fun _ member => absurd member List.not_mem_nil

theorem skipSpaces_append (spaces : Spaces before)
    (visible : ∀ c, t.head? = some c → isSpace c = false) (n : Nat) :
    Cursor.skipSpaces ⟨before ++ t, n⟩ = ⟨t, n + before.length⟩ := by
  have stops : t.takeWhile isSpace = [] := by
    cases t with
    | nil => rfl
    | cons c t => simp [visible c rfl]
  rw [Cursor.skipSpaces, List.takeWhile_append_of_pos spaces, stops, List.append_nil,
    Cursor.advance, List.drop_left]

theorem visible_cons {c : CodePoint} (visible : isSpace c = false) (t : Text) :
    ∀ d, (c :: t).head? = some d → isSpace d = false := by
  rintro d same
  rw [← Option.some.inj same]
  exact visible

/-- A mark that the reader looks for. -/
theorem mark_eq (c : Char) :
    (do let a ← some c; pure (CodePoint.ofChar a) : Option CodePoint) = some (CodePoint.ofChar c) :=
  rfl

/-! ## Items -/

theorem readValue_array (spaces : Spaces before) (opens : Opens t) (fuel n : Nat) :
    ∃ m, readValue (fuel + 1) ⟨CodePoint.ofChar '[' :: (before ++ t), n⟩ =
      readItems fuel [] ⟨t, m⟩ := by
  refine ⟨n + 1 + before.length, ?_⟩
  rw [readValue]
  dsimp only
  rw [if_neg (by decide), if_neg (by decide), if_pos rfl]
  simp only [Cursor.advance, List.drop_one, List.tail_cons, skipSpaces_append spaces opens.visible,
    Cursor.peek?, mark_eq, opens.head_ne (show opensValue ']' = false by decide), if_false]

theorem readValue_emptyArray (spaces : Spaces before) (fuel n : Nat) (rest : Text) :
    ∃ m, readValue (fuel + 1)
        ⟨CodePoint.ofChar '[' :: (before ++ CodePoint.ofChar ']' :: rest), n⟩ =
      .ok (.arr [], ⟨rest, m⟩) := by
  refine ⟨n + 1 + before.length + 1, ?_⟩
  rw [readValue]
  dsimp only
  rw [if_neg (by decide), if_neg (by decide), if_pos rfl]
  simp only [Cursor.advance, List.drop_one, List.tail_cons,
    skipSpaces_append spaces (visible_cons (show isSpace ']' = false by decide) _), Cursor.peek?,
    mark_eq, List.head?_cons, if_true]

theorem readItems_last (spaces : Spaces before)
    (read : readValue fuel cur = .ok (x, ⟨before ++ CodePoint.ofChar ']' :: rest, n⟩)) :
    ∃ m, readItems (fuel + 1) seen cur = .ok (.arr (seen.reverse ++ [x]), ⟨rest, m⟩) := by
  refine ⟨n + before.length + 1, ?_⟩
  rw [readItems, read]
  dsimp only
  rw [skipSpaces_append spaces (visible_cons (by decide) _)]
  simp [Cursor.peek?, Cursor.advance]

theorem readItems_more (seen : List Json) (spaces : Spaces before) (further : Spaces behind)
    (opens : Opens t)
    (read : readValue fuel cur =
      .ok (x, ⟨before ++ CodePoint.ofChar ',' :: (behind ++ t), n⟩)) :
    ∃ m, readItems (fuel + 1) seen cur = readItems fuel (x :: seen) ⟨t, m⟩ := by
  refine ⟨n + before.length + 1 + behind.length, ?_⟩
  have comma : ¬ some (CodePoint.ofChar ',') = some (CodePoint.ofChar ']') := by decide
  rw [readItems, read]
  dsimp only
  rw [skipSpaces_append spaces (visible_cons (by decide) _)]
  simp only [Cursor.peek?, mark_eq, List.head?_cons, comma, if_false, ne_eq, not_true_eq_false,
    Cursor.advance, List.drop_one, List.tail_cons, skipSpaces_append further opens.visible]

/-! ## Quoted texts -/

/-- A quoted text that is read as a text, whatever follows it. -/
def Quotes (q k : Text) : Prop :=
  ∃ body, q = CodePoint.ofChar '"' :: (body ++ [CodePoint.ofChar '"']) ∧
    ∀ start n rest, ∃ m,
      readString start 0 n (body ++ CodePoint.ofChar '"' :: rest) = .ok (k, ⟨rest, m⟩)

theorem quotes_writeText (k : Text) : Quotes (writeText k) k :=
  ⟨k.flatMap writeChar, rfl, fun start n => readString_writeText start n k⟩

theorem readValue_quoted (quotes : Quotes q k) (fuel n : Nat) (rest : Text) :
    ∃ m, readValue (fuel + 1) ⟨q ++ rest, n⟩ = .ok (.str k, ⟨rest, m⟩) := by
  obtain ⟨body, rfl, reads⟩ := quotes
  obtain ⟨m, read⟩ := reads n (n + 1) rest
  refine ⟨m, ?_⟩
  rw [List.cons_append, List.append_assoc, List.singleton_append, readValue]
  simp only [if_true, read]

/-! ## Fields -/

/-- What stands before the value of a field: its quoted key and a colon. -/
def KeyText (s k : Text) : Prop :=
  ∃ q before behind, Quotes q k ∧ Spaces before ∧ Spaces behind ∧
    s = q ++ (before ++ CodePoint.ofChar ':' :: behind)

theorem keyText_writeText (k : Text) : KeyText (writeText k ++ keyMark) k :=
  ⟨writeText k, [], [0x20], quotes_writeText k, spaces_nil, List.forall_mem_singleton.2 rfl, rfl⟩

theorem KeyText.quoted {s : Text} (key : KeyText s k) : ∃ u, s = CodePoint.ofChar '"' :: u := by
  obtain ⟨q, _, _, ⟨body, rfl, _⟩, _, _, rfl⟩ := key
  exact ⟨_, rfl⟩

theorem KeyText.opens {s : Text} (key : KeyText s k) : Opens s := by
  obtain ⟨u, rfl⟩ := key.quoted
  exact ⟨_, _, rfl, by decide⟩

theorem readValue_object {s : Text} (spaces : Spaces before) (key : KeyText s k) (t : Text)
    (fuel n : Nat) :
    ∃ m, readValue (fuel + 1) ⟨CodePoint.ofChar '\x7b' :: (before ++ (s ++ t)), n⟩ =
      readFields fuel [] ⟨s ++ t, m⟩ := by
  obtain ⟨u, rfl⟩ := key.quoted
  refine ⟨n + 1 + before.length, ?_⟩
  rw [readValue]
  dsimp only
  rw [if_neg (by decide), if_pos rfl]
  have filled : ¬ some (CodePoint.ofChar '"') = some (CodePoint.ofChar '\x7d') := by decide
  simp only [List.cons_append, Cursor.advance, List.drop_one, List.tail_cons,
    skipSpaces_append spaces (visible_cons (show isSpace '"' = false by decide) _), Cursor.peek?,
    mark_eq, List.head?_cons, filled, if_false]

theorem readValue_emptyObject (spaces : Spaces before) (fuel n : Nat) (rest : Text) :
    ∃ m, readValue (fuel + 1)
        ⟨CodePoint.ofChar '\x7b' :: (before ++ CodePoint.ofChar '\x7d' :: rest), n⟩ =
      .ok (.obj [], ⟨rest, m⟩) := by
  refine ⟨n + 1 + before.length + 1, ?_⟩
  rw [readValue]
  dsimp only
  rw [if_neg (by decide), if_pos rfl]
  simp only [Cursor.advance, List.drop_one, List.tail_cons,
    skipSpaces_append spaces (visible_cons (show isSpace '\x7d' = false by decide) _),
    Cursor.peek?, mark_eq, List.head?_cons, if_true]

variable {s : Text} {fs : Mapping Json}

/-- A field up to its value. -/
theorem readFields_value {after : Text} (key : KeyText s k) (fs : Mapping Json) (opens : Opens t)
    (read : ∀ n, ∃ m, readValue fuel ⟨t, n⟩ = .ok (v, ⟨after, m⟩)) (n : Nat) :
    ∃ m, readFields (fuel + 1) fs ⟨s ++ t, n⟩ =
      (let cur := (Cursor.mk after m).skipSpaces
      if cur.peek? = some (CodePoint.ofChar '\x7d') then
        .ok (.obj (Mapping.insert k v fs), cur.advance 1)
      else if cur.peek? ≠ some (CodePoint.ofChar ',') then
        .error (.at .expectingComma cur.offset)
      else readFields fuel (Mapping.insert k v fs) (cur.advance 1).skipSpaces) := by
  obtain ⟨q, before, behind, ⟨body, rfl, reads⟩, spaces, further, rfl⟩ := key
  obtain ⟨a, name⟩ := reads n (n + 1) (before ++ CodePoint.ofChar ':' :: (behind ++ t))
  obtain ⟨b, value⟩ := read (a + before.length + 1 + behind.length)
  refine ⟨b, ?_⟩
  simp only [List.cons_append, List.append_assoc, List.nil_append]
  rw [readFields]
  simp only [Cursor.peek?, mark_eq, List.head?_cons, ne_eq, not_true_eq_false, if_false,
    List.drop_one, List.tail_cons, name]
  rw [skipSpaces_append spaces (visible_cons (by decide) _)]
  simp only [List.head?_cons, not_true_eq_false, if_false, Cursor.advance, List.drop_one,
    List.tail_cons, skipSpaces_append further opens.visible, value]

theorem readFields_last (key : KeyText s k) (opens : Opens t) (spaces : Spaces before)
    (read : ∀ n, ∃ m, readValue fuel ⟨t, n⟩ =
      .ok (v, ⟨before ++ CodePoint.ofChar '\x7d' :: rest, m⟩)) (n : Nat) :
    ∃ m, readFields (fuel + 1) fs ⟨s ++ t, n⟩ =
      .ok (.obj (Mapping.insert k v fs), ⟨rest, m⟩) := by
  obtain ⟨a, reads⟩ := readFields_value key fs opens read n
  refine ⟨a + before.length + 1, ?_⟩
  rw [reads]
  dsimp only
  rw [skipSpaces_append spaces (visible_cons (by decide) _)]
  simp [Cursor.peek?, Cursor.advance]

theorem readFields_more {more : Text} (fs : Mapping Json) (key : KeyText s k) (opens : Opens t)
    (spaces : Spaces before) (further : Spaces behind) (next : Opens more)
    (read : ∀ n, ∃ m, readValue fuel ⟨t, n⟩ =
      .ok (v, ⟨before ++ CodePoint.ofChar ',' :: (behind ++ more), m⟩)) (n : Nat) :
    ∃ m, readFields (fuel + 1) fs ⟨s ++ t, n⟩ =
      readFields fuel (Mapping.insert k v fs) ⟨more, m⟩ := by
  obtain ⟨a, reads⟩ := readFields_value key fs opens read n
  have comma : ¬ some (CodePoint.ofChar ',') = some (CodePoint.ofChar '\x7d') := by decide
  refine ⟨a + before.length + 1 + behind.length, ?_⟩
  rw [reads]
  dsimp only
  rw [skipSpaces_append spaces (visible_cons (by decide) _)]
  simp only [Cursor.peek?, List.head?_cons, comma, if_false, ne_eq, not_true_eq_false,
    Cursor.advance, List.drop_one, List.tail_cons, skipSpaces_append further next.visible]

/-! ## Documents -/

/-- A document is one value between blanks. -/
theorem read_document {doc : Text} (spaces : Spaces before) (further : Spaces behind)
    (opens : Opens t) (doc_eq : doc = before ++ (t ++ behind))
    (reads : ∀ fuel n, t.length ≤ fuel →
      ∃ m, readValue fuel ⟨t ++ behind, n⟩ = .ok (v, ⟨behind, m⟩)) : read doc = .ok v := by
  subst doc_eq
  have unmarked : (before ++ (t ++ behind)).head? ≠ some 0xFEFF := by
    cases before with
    | nil => exact (opens.append behind).head_ne (by decide)
    | cons c before =>
      rintro same
      have space := spaces c List.mem_cons_self
      rw [Option.some.inj same] at space
      cases space
  obtain ⟨m, value⟩ := reads (2 * (before ++ (t ++ behind)).length + 2) (0 + before.length)
    (by rw [List.length_append, List.length_append]; omega)
  have finished : Cursor.skipSpaces ⟨behind, m⟩ = ⟨[], m + behind.length⟩ := by
    have skipped := skipSpaces_append further (t := []) (fun c front => nomatch front) m
    rwa [List.append_nil] at skipped
  rw [read, readDocument, if_neg unmarked, skipSpaces_append spaces (opens.append behind).visible,
    value]
  simp only [finished, if_true]

end Arabize.Json
