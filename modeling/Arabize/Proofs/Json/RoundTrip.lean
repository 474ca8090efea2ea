import Arabize.Proofs.Json.Parts
import Arabize.Proofs.Json.Reading

/-! # Reading values back

A value is written over lines, and between its parts the reader passes over line breaks, blanks
and marks.  By induction on the value, the reader comes back with it and stops right behind it
(`readValue_writeAt`).  So a document that was written is read as the value it was written for
(`read_write`).

The fuel that is asked for is the length of the text, which every part shortens.
-/

namespace Arabize.Json

variable {j x v : Json} {seen : List Json} {fs : Mapping Json} {k t rest : Text} {cur : Cursor}
  {fuel level close n m : Nat}

theorem ofInt_ne_nil (n : Int) : Text.ofInt n ≠ [] := by
  cases n with
  | ofNat n => exact Text.ofNat_ne_nil n
  | negSucc n => exact List.cons_ne_nil _ _

theorem opens_writeAt (writable : j.Writable) (level : Nat) :
    Opens (writeAt writeText level j) := by
  cases j with
  | null => exact ⟨_, _, rfl, by decide⟩
  | bool b => cases b <;> exact ⟨_, _, rfl, by decide⟩
  | int n => exact opens_scalar (scalar_ofInt n) (ofInt_ne_nil n)
  | float x =>
    refine opens_scalar (scalar_double x) fun empty => ?_
    rw [Writable, show numberLayout.double x = [] from empty] at writable
    cases writable
  | str t => exact ⟨_, _, rfl, by decide⟩
  | arr xs => cases xs <;> exact ⟨_, _, rfl, by decide⟩
  | obj fs => cases fs <;> exact ⟨_, _, rfl, by decide⟩

theorem spaces_newline (level : Nat) : Spaces (newline level) := by
  refine List.forall_mem_cons.2 ⟨rfl, fun c member => ?_⟩
  rw [List.eq_of_mem_replicate member]
  rfl

/-! ## Values -/

/-- The items of an array, all but the first behind a comma. -/
def itemsAt (level : Nat) : List Json → Text
  | [] => []
  | x :: xs => writeAt writeText level x ++ writeItems writeText level xs

/-- The fields of an object, all but the first behind a comma. -/
def fieldsAt (level : Nat) : List (Text × Json) → Text
  | [] => []
  | (k, v) :: fs =>
    writeText k ++ (keyMark ++ (writeAt writeText level v ++ writeFields writeText level fs))

theorem writeAt_arr (level : Nat) (x : Json) (xs : List Json) (rest : Text) :
    writeAt writeText level (.arr (x :: xs)) ++ rest =
      CodePoint.ofChar '[' :: (newline (level + 1) ++ (itemsAt (level + 1) (x :: xs) ++
        (newline level ++ CodePoint.ofChar ']' :: rest))) := by
  simp [writeAt, itemsAt, Text.ofString]

theorem writeAt_obj (level : Nat) (kv : Text × Json) (fs : List (Text × Json)) (rest : Text) :
    writeAt writeText level (.obj (kv :: fs)) ++ rest =
      CodePoint.ofChar '\x7b' :: (newline (level + 1) ++ (fieldsAt (level + 1) (kv :: fs) ++
        (newline level ++ CodePoint.ofChar '\x7d' :: rest))) := by
  simp [writeAt, fieldsAt, Text.ofString]

theorem writeItems_cons (level : Nat) (x : Json) (xs : List Json) :
    writeItems writeText level (x :: xs) =
      CodePoint.ofChar ',' :: (newline level ++ itemsAt level (x :: xs)) := by
  simp [writeItems, itemsAt, Text.ofString]

theorem writeFields_cons (level : Nat) (kv : Text × Json) (fs : List (Text × Json)) :
    writeFields writeText level (kv :: fs) =
      CodePoint.ofChar ',' :: (newline level ++ fieldsAt level (kv :: fs)) := by
  simp [writeFields, fieldsAt, Text.ofString]

theorem readValue_of_scalar (scalar : Scalar t) (read : readScalar ⟨t, 0⟩ = .ok (j, cur))
    (whole : cur.rest = []) (ends : Ends rest) (enough : t.length ≤ fuel) (n : Nat) :
    ∃ m, readValue fuel ⟨t ++ rest, n⟩ = .ok (j, ⟨rest, m⟩) := by
  have filled : t ≠ [] := by
    rintro rfl
    cases read
  have := List.length_pos_iff.2 filled
  cases fuel with
  | zero => omega
  | succ fuel =>
    rw [readValue_scalar scalar filled, readScalar_append ends read whole]
    exact ⟨_, rfl⟩

theorem opens_itemsAt {xs : List Json} (writable : x.Writable) (level : Nat) :
    Opens (itemsAt level (x :: xs)) :=
  (opens_writeAt writable level).append _

theorem mem_parts_self (j : Json) : j ∈ j.parts := by
  cases j <;> exact List.mem_cons_self

/-- Fields start with a key. -/
theorem fieldsAt_append (level : Nat) (kv : Text × Json) (fs : List (Text × Json)) (rest : Text) :
    ∃ more, fieldsAt level (kv :: fs) ++ rest = (writeText kv.1 ++ keyMark) ++ more :=
  ⟨writeAt writeText level kv.2 ++ (writeFields writeText level fs ++ rest), by
    simp only [fieldsAt, List.append_assoc]⟩

theorem not_mem_keys_of_nodup {seen fs : List (Text × Json)} {k : Text} {v : Json}
    (nodup : (Mapping.keys (seen ++ (k, v) :: fs)).Nodup) : k ∉ Mapping.keys seen := by
  rw [Mapping.keys, List.map_append, List.nodup_append] at nodup
  exact fun member => nodup.2.2 k member k List.mem_cons_self rfl

mutual

/-- A value is read back from what it is written as, and no more is read than that. -/
theorem readValue_writeAt : ∀ (j : Json), (∀ part ∈ j.parts, part.Writable) →
    ∀ (level fuel n : Nat) (rest : Text), Ends rest →
      (writeAt writeText level j).length ≤ fuel →
      ∃ m, readValue fuel ⟨writeAt writeText level j ++ rest, n⟩ = .ok (j, ⟨rest, m⟩)
  | .null, _, _, _, n, _, ends, enough => by
    rw [writeAt] at enough ⊢
    exact readValue_of_scalar (by decide) rfl rfl ends enough n
  | .bool true, _, _, _, n, _, ends, enough => by
    rw [writeAt] at enough ⊢
    exact readValue_of_scalar (by decide) rfl rfl ends enough n
  | .bool false, _, _, _, n, _, ends, enough => by
    rw [writeAt] at enough ⊢
    exact readValue_of_scalar (by decide) rfl rfl ends enough n
  | .int i, writable, _, _, n, _, ends, enough => by
    obtain ⟨cur, read, whole⟩ := readScalar_ofInt (writable _ (mem_parts_self _)) 0
    rw [writeAt] at enough ⊢
    exact readValue_of_scalar (scalar_ofInt i) read whole ends enough n
  | .float x, writable, _, _, n, _, ends, enough => by
    obtain ⟨cur, read, whole⟩ :=
      readScalar_of_read (scalar_double x) (writable _ (mem_parts_self _))
    rw [writeAt] at enough ⊢
    exact readValue_of_scalar (scalar_double x) read whole ends enough n
  | .str t, _, _, _, n, rest, _, enough => by
    rw [writeAt] at enough ⊢
    obtain ⟨f, rfl⟩ := Nat.exists_eq_add_one.2 (Nat.lt_of_lt_of_le (Nat.succ_pos _) enough)
    exact readValue_quoted (quotes_writeText t) f n rest
  | .arr [], _, _, fuel, n, rest, _, enough => by
    obtain ⟨f, rfl⟩ := Nat.exists_eq_add_one.2 (Nat.lt_of_lt_of_le (Nat.succ_pos 1) enough)
    exact readValue_emptyArray spaces_nil f n rest
  | .arr (x :: xs), writable, level, fuel, n, rest, _, enough => by
    have width := congrArg List.length (writeAt_arr level x xs [])
    simp only [List.append_nil, List.length_append, List.length_cons] at width
    obtain ⟨f, rfl⟩ := Nat.exists_eq_add_one.2 (show 0 < fuel by omega)
    have inner := (List.forall_mem_cons.1 writable).2
    -- It is not read as an empty array, because an item opens a value.
    have first := inner x (List.mem_append_left _ (mem_parts_self x))
    obtain ⟨m, opened⟩ := readValue_array (spaces_newline (level + 1))
      ((opens_itemsAt first (level + 1)).append (newline level ++ CodePoint.ofChar ']' :: rest)) f n
    rw [writeAt_arr, opened]
    exact readItems_itemsAt (x :: xs) (List.cons_ne_nil _ _) inner (level + 1) level f m [] rest
      (by omega)
  | .obj [], _, _, fuel, n, rest, _, enough => by
    obtain ⟨f, rfl⟩ := Nat.exists_eq_add_one.2 (Nat.lt_of_lt_of_le (Nat.succ_pos 1) enough)
    exact readValue_emptyObject spaces_nil f n rest
  | .obj (kv :: fs), writable, level, fuel, n, rest, _, enough => by
    have width := congrArg List.length (writeAt_obj level kv fs [])
    simp only [List.append_nil, List.length_append, List.length_cons] at width
    obtain ⟨f, rfl⟩ := Nat.exists_eq_add_one.2 (show 0 < fuel by omega)
    obtain ⟨nodup, inner⟩ := List.forall_mem_cons.1 writable
    obtain ⟨more, text⟩ := fieldsAt_append (level + 1) kv fs
      (newline level ++ CodePoint.ofChar '\x7d' :: rest)
    obtain ⟨m, opened⟩ := readValue_object (spaces_newline (level + 1)) (keyText_writeText kv.1)
      more f n
    rw [writeAt_obj, text, opened, ← text]
    exact readFields_fieldsAt (kv :: fs) (List.cons_ne_nil _ _) inner (level + 1) level f m [] rest
      nodup (by omega)

theorem readItems_itemsAt : ∀ (xs : List Json), xs ≠ [] → (∀ part ∈ partsList xs, part.Writable) →
    ∀ (level close fuel n : Nat) (seen : List Json) (rest : Text),
      (itemsAt level xs).length < fuel →
      ∃ m, readItems fuel seen
          ⟨itemsAt level xs ++ (newline close ++ CodePoint.ofChar ']' :: rest), n⟩ =
        .ok (.arr (seen.reverse ++ xs), ⟨rest, m⟩)
  | [], filled, _, _, _, _, _, _, _, _ => absurd rfl filled
  | [x], _, writable, level, close, fuel, n, seen, rest, enough => by
    rw [partsList, partsList, List.append_nil] at writable
    rw [itemsAt, writeItems, List.append_nil] at enough ⊢
    obtain ⟨f, rfl⟩ := Nat.exists_eq_add_one.2 (Nat.zero_lt_of_lt enough)
    obtain ⟨m, read⟩ := readValue_writeAt x writable level f n
      (newline close ++ CodePoint.ofChar ']' :: rest) (ends_newline _ _) (Nat.le_of_lt_succ enough)
    exact readItems_last (spaces_newline close) read
  | x :: y :: ys, _, writable, level, close, fuel, n, seen, rest, enough => by
    rw [partsList, List.forall_mem_append] at writable
    rw [itemsAt, writeItems_cons, List.append_assoc, List.cons_append, List.append_assoc]
    rw [itemsAt, writeItems_cons, List.length_append, List.length_cons,
      List.length_append] at enough
    obtain ⟨f, rfl⟩ := Nat.exists_eq_add_one.2 (Nat.zero_lt_of_lt enough)
    have second := writable.2 y (List.mem_append_left _ (mem_parts_self y))
    -- An item takes one step of the fuel, and at least the comma behind it of the text.
    obtain ⟨m, read⟩ := readValue_writeAt x writable.1 level f n _ (ends_comma _) (by omega)
    obtain ⟨a, further⟩ := readItems_more seen spaces_nil (spaces_newline level)
      ((opens_itemsAt second level).append _) read
    obtain ⟨b, others⟩ := readItems_itemsAt (y :: ys) (List.cons_ne_nil _ _) writable.2 level close
      f a (x :: seen) rest (by omega)
    rw [List.reverse_cons, List.append_assoc, List.singleton_append] at others
    exact ⟨b, further.trans others⟩

theorem readFields_fieldsAt : ∀ (fs : List (Text × Json)), fs ≠ [] →
    (∀ part ∈ partsFields fs, part.Writable) →
    ∀ (level close fuel n : Nat) (seen : Mapping Json) (rest : Text),
      (Mapping.keys (seen ++ fs)).Nodup → (fieldsAt level fs).length < fuel →
      ∃ m, readFields fuel seen
          ⟨fieldsAt level fs ++ (newline close ++ CodePoint.ofChar '\x7d' :: rest), n⟩ =
        .ok (.obj (seen ++ fs), ⟨rest, m⟩)
  | [], filled, _, _, _, _, _, _, _, _, _ => absurd rfl filled
  | [(k, v)], _, writable, level, close, fuel, n, seen, rest, nodup, enough => by
    rw [partsFields, partsFields, List.append_nil] at writable
    rw [fieldsAt, writeFields, List.append_nil] at enough ⊢
    rw [List.length_append, List.length_append] at enough
    obtain ⟨f, rfl⟩ := Nat.exists_eq_add_one.2 (Nat.zero_lt_of_lt enough)
    rw [List.append_assoc, List.append_assoc, ← List.append_assoc (writeText k),
      ← Mapping.insert_of_not_mem (not_mem_keys_of_nodup nodup)]
    exact readFields_last (keyText_writeText k)
      ((opens_writeAt (writable v (mem_parts_self v)) level).append _) (spaces_newline close)
      (fun a => readValue_writeAt v writable level f a _ (ends_newline _ _) (by omega)) n
  | (k, v) :: (l, w) :: fs, _, writable, level, close, fuel, n, seen, rest, nodup, enough => by
    rw [partsFields, List.forall_mem_append] at writable
    rw [fieldsAt, writeFields_cons, List.length_append, List.length_append, List.length_append,
      List.length_cons, List.length_append] at enough
    obtain ⟨f, rfl⟩ := Nat.exists_eq_add_one.2 (Nat.zero_lt_of_lt enough)
    have first := opens_writeAt (writable.1 v (mem_parts_self v)) level
    obtain ⟨more, text⟩ := fieldsAt_append level (l, w) fs
      (newline close ++ CodePoint.ofChar '\x7d' :: rest)
    rw [fieldsAt, writeFields_cons, List.append_assoc, List.append_assoc, List.append_assoc,
      List.cons_append, List.append_assoc, text, ← List.append_assoc (writeText k)]
    obtain ⟨a, further⟩ := readFields_more seen (keyText_writeText k) (first.append _)
      spaces_nil (spaces_newline level) ((keyText_writeText l).opens.append more)
      (fun a => readValue_writeAt v writable.1 level f a _ (ends_comma _) (by omega)) n
    rw [Mapping.insert_of_not_mem (not_mem_keys_of_nodup nodup)] at further
    obtain ⟨b, others⟩ := readFields_fieldsAt ((l, w) :: fs) (List.cons_ne_nil _ _) writable.2 level
      close f a (seen ++ [(k, v)]) rest (by rwa [List.append_assoc]) (by omega)
    rw [text, List.append_assoc seen, List.singleton_append] at others
    exact ⟨b, further.trans others⟩

end

/-- A document that was written is read as the value it was written for. -/
theorem read_write (writable : ∀ part ∈ j.parts, part.Writable) : read j.write = .ok j :=
  read_document spaces_nil spaces_nil (opens_writeAt (writable j (mem_parts_self j)) 0)
    (List.append_nil j.write).symm fun fuel n enough =>
      readValue_writeAt j writable 0 fuel n [] ends_nil enough

end Arabize.Json
