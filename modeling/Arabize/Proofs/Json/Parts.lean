import Arabize.Proofs.Json.Leaves
import Arabize.Proofs.Json.Scalar
import Arabize.Proofs.Mapping

/-! # The parts of a value

The parts of a value are the value and all values in it.  What a value must be like to be read
back once it is written (`Writable`) is asked of each part by itself, and does not depend on the
strings in it.  A value that was read is like this, doubles aside (`read_regular`).
-/

namespace Arabize.Json

mutual

/-- A value and all values in it. -/
def parts : Json → List Json
  | .arr xs => .arr xs :: partsList xs
  | .obj fs => .obj fs :: partsFields fs
  | .str t => [.str t]
  | .null => [.null]
  | .bool b => [.bool b]
  | .int n => [.int n]
  | .float x => [.float x]

def partsList : List Json → List Json
  | [] => []
  | x :: xs => parts x ++ partsList xs

def partsFields : List (Text × Json) → List Json
  | [] => []
  | (_, v) :: fs => parts v ++ partsFields fs

end

variable {j k : Json}

theorem mem_partsList {xs : List Json} : k ∈ partsList xs ↔ ∃ x ∈ xs, k ∈ x.parts := by
  induction xs with
  | nil => simp [partsList]
  | cons x xs ih => simp [partsList, ih]

theorem mem_partsFields {fs : List (Text × Json)} :
    k ∈ partsFields fs ↔ ∃ kv ∈ fs, k ∈ kv.2.parts := by
  induction fs with
  | nil => simp [partsFields]
  | cons kv fs ih => simp [partsFields, ih]

mutual

theorem parts_shape : ∀ j : Json, j.shape.parts = j.parts.map shape
  | .arr xs => by
    rw [shape, parts, parts, List.map_cons, shape, partsList_shapeList xs]
  | .obj fs => by
    rw [shape, parts, parts, List.map_cons, shape, partsFields_shapeFields fs]
  | .str _ | .null | .bool _ | .int _ | .float _ => rfl

theorem partsList_shapeList : ∀ xs : List Json, partsList (shapeList xs) = (partsList xs).map shape
  | [] => rfl
  | x :: xs => by
    rw [shapeList, partsList, partsList, List.map_append, parts_shape x, partsList_shapeList xs]

theorem partsFields_shapeFields : ∀ fs : List (Text × Json),
    partsFields (shapeFields fs) = (partsFields fs).map shape
  | [] => rfl
  | (_, v) :: fs => by
    rw [shapeFields, partsFields, partsFields, List.map_append, parts_shape v,
      partsFields_shapeFields fs]

end

theorem keys_shapeFields (fs : List (Text × Json)) :
    Mapping.keys (shapeFields fs) = Mapping.keys fs := by
  induction fs with
  | nil => rfl
  | cons kv fs ih =>
    simp only [Mapping.keys] at ih
    simp only [Mapping.keys, shapeFields, List.map_cons, ih]

def finite? : Json → Option Binary64
  | .float (.finite negative m e) => some (.finite negative m e)
  | _ => none

/-- The finite doubles in a value. -/
def doubles (j : Json) : List Binary64 := j.parts.filterMap finite?

theorem eq_float_of_finite? {x : Binary64} (found : j.finite? = some x) : j = .float x := by
  unfold finite? at found
  split at found <;> cases found
  rfl

theorem mem_doubles {negative : Bool} {m : Nat} {e : Int}
    (member : .float (.finite negative m e) ∈ j.parts) : .finite negative m e ∈ j.doubles :=
  List.mem_filterMap.2 ⟨_, member, rfl⟩

/-! ## Values that can be written -/

/-- What is asked of a part to be read back: a whole number is not too long, a double is read back
    by itself, and no key of an object comes twice. -/
def Writable : Json → Prop
  | .int n => (Text.ofNat n.natAbs).length ≤ maxDigits
  | .float x => read (numberLayout.double x) = .ok (.float x)
  | .obj fs => (Mapping.keys fs).Nodup
  | _ => True

/-- What is not finite is written as a word that is read back. -/
theorem writable_float {x : Binary64}
    (finite : ∀ negative m e, x = .finite negative m e →
      read (numberLayout.double x) = .ok (.float x)) : (Json.float x).Writable := by
  rw [Writable]
  cases x with
  | finite negative m e => exact finite negative m e rfl
  | infinite negative => cases negative <;> rfl
  | undefined => rfl

theorem writable_shape : j.shape.Writable ↔ j.Writable := by
  cases j with
  | obj fs => rw [shape, Writable, keys_shapeFields, Writable]
  | _ => exact Iff.rfl

/-- Whether a value can be written depends on its shape only. -/
theorem writable_of_shape (same : k.shape = j.shape) (writable : ∀ part ∈ j.parts, part.Writable) :
    ∀ part ∈ k.parts, part.Writable := by
  intro part member
  have shapes : part.shape ∈ j.parts.map shape := by
    rw [← parts_shape, ← same, parts_shape]
    exact List.mem_map_of_mem member
  obtain ⟨other, isPart, alike⟩ := List.mem_map.1 shapes
  rw [← writable_shape, ← alike, writable_shape]
  exact writable other isPart

/-! ## Values that were read -/

/-- A value that can be written if its doubles can. -/
def Regular (j : Json) : Prop := ∀ part ∈ j.parts, (∀ x, part ≠ .float x) → part.Writable

theorem regular_arr {xs : List Json} (items : ∀ x ∈ xs, Regular x) : Regular (.arr xs) := by
  intro part member noFloat
  rcases List.mem_cons.1 member with rfl | inner
  · trivial
  · obtain ⟨x, isItem, within⟩ := mem_partsList.1 inner
    exact items x isItem part within noFloat

theorem regular_obj {fs : List (Text × Json)} (nodup : (Mapping.keys fs).Nodup)
    (values : ∀ kv ∈ fs, Regular kv.2) : Regular (.obj fs) := by
  intro part member noFloat
  rcases List.mem_cons.1 member with rfl | inner
  · exact nodup
  · obtain ⟨kv, isField, within⟩ := mem_partsFields.1 inner
    exact values kv isField part within noFloat

theorem regular_single (alone : j.parts = [j]) (writable : (∀ x, j ≠ .float x) → j.Writable) :
    Regular j := by
  intro part member noFloat
  rw [alone, List.mem_singleton] at member
  subst member
  exact writable noFloat

theorem regular_float (x : Binary64) : Regular (.float x) :=
  regular_single rfl fun noFloat => absurd rfl (noFloat x)

theorem isDigit_of_mem_wholeDigits {t : Text} {c : CodePoint} (member : c ∈ wholeDigits t) :
    c.isDigit = true := by
  unfold wholeDigits at member
  split at member
  next zero =>
    cases t with
    | nil => cases zero
    | cons d t =>
      rw [List.take_succ_cons, List.take_zero, List.mem_singleton] at member
      rw [member, Option.some.inj (beq_iff_eq.1 zero)]
      rfl
  next => exact List.all_eq_true.1 List.all_takeWhile c member

theorem whole_readNumeral? {t : Text} {n : Numeral} (found : readNumeral? t = some n) :
    n.whole ≠ [] ∧ ∀ c ∈ n.whole, c.isDigit = true := by
  rw [readNumeral?_eq] at found
  dsimp only at found
  split at found
  · cases found
  next filled =>
    cases found
    exact ⟨filled, fun _ => isDigit_of_mem_wholeDigits⟩

theorem regular_numeral {t : Text} {n : Numeral} (found : readNumeral? t = some n)
    (value : n.value = .ok j) : Regular j := by
  obtain ⟨filled, digits⟩ := whole_readNumeral? found
  unfold Numeral.value at value
  split at value
  · split at value
    · cases value
    next short =>
      cases value
      refine regular_single rfl fun _ => ?_
      have same : (if n.negative then -(Text.decimalValue n.whole : Int)
          else Text.decimalValue n.whole).natAbs = Text.decimalValue n.whole := by
        split <;> simp
      rw [Writable, same]
      exact Nat.le_trans (Text.length_ofNat_decimalValue_le filled digits) (Nat.not_lt.1 short)
  · cases value
    exact regular_float _

theorem regular_word {t : Text} {n : Nat} (found : readWord? t = some (j, n)) : Regular j := by
  rw [readWord?, Option.map_eq_some_iff] at found
  obtain ⟨w, isWord, same⟩ := found
  cases same
  have member := List.mem_of_find?_eq_some isWord
  simp only [words, List.mem_cons, List.not_mem_nil, or_false] at member
  rcases member with rfl | rfl | rfl | rfl | rfl | rfl
  · exact regular_single rfl fun _ => trivial
  · exact regular_single rfl fun _ => trivial
  · exact regular_single rfl fun _ => trivial
  all_goals exact regular_float _

theorem regular_scalar {cur after : Cursor} (read : readScalar cur = .ok (j, after)) :
    Regular j := by
  unfold readScalar at read
  split at read
  next word =>
    cases read
    exact regular_word word
  next =>
    split at read
    next => cases read
    next found =>
      split at read
      next value =>
        cases read
        exact regular_numeral found value
      next => cases read

theorem regular_readValue {fuel : Nat} {cur after : Cursor}
    (fields : ∀ cur, readFields fuel [] cur = .ok (j, after) → Regular j)
    (items : ∀ cur, readItems fuel [] cur = .ok (j, after) → Regular j)
    (read : readValue (fuel + 1) cur = .ok (j, after)) : Regular j := by
  rw [readValue] at read
  split at read
  next => cases read
  next =>
    split at read
    · split at read <;> cases read
      exact regular_single rfl fun _ => trivial
    · split at read
      · dsimp only at read
        split at read
        · cases read
          exact regular_obj List.nodup_nil (by simp)
        · exact fields _ read
      · split at read
        · dsimp only at read
          split at read
          · cases read
            exact regular_arr (by simp)
          · exact items _ read
        · exact regular_scalar read

/-- A field is put among those before it; a key that was there gets the new value. -/
theorem regular_readFields {fuel : Nat} {seen : Mapping Json} {cur after : Cursor}
    (value : ∀ cur v behind, readValue fuel cur = .ok (v, behind) → Regular v)
    (fields : ∀ seen cur, readFields fuel seen cur = .ok (j, after) →
      (Mapping.keys seen).Nodup → (∀ kv ∈ seen, Regular kv.2) → Regular j)
    (nodup : (Mapping.keys seen).Nodup) (before : ∀ kv ∈ seen, Regular kv.2)
    (read : readFields (fuel + 1) seen cur = .ok (j, after)) : Regular j := by
  rw [readFields] at read
  split at read
  · cases read
  · split at read
    · cases read
    next key behind _ =>
      dsimp only at read
      split at read
      · cases read
      · split at read
        · cases read
        next v further here =>
          have now : ∀ kv ∈ Mapping.insert key v seen, Regular kv.2 := by
            intro kv member
            rcases Mapping.mem_insert member with rfl | earlier
            · exact value _ _ _ here
            · exact before kv earlier
          have distinct := Mapping.nodup_keys_insert nodup key v
          split at read
          · cases read
            exact regular_obj distinct now
          · split at read
            · cases read
            · exact fields _ _ read distinct now

theorem regular_readItems {fuel : Nat} {seen : List Json} {cur after : Cursor}
    (value : ∀ cur v behind, readValue fuel cur = .ok (v, behind) → Regular v)
    (items : ∀ seen cur, readItems fuel seen cur = .ok (j, after) →
      (∀ x ∈ seen, Regular x) → Regular j)
    (before : ∀ x ∈ seen, Regular x)
    (read : readItems (fuel + 1) seen cur = .ok (j, after)) : Regular j := by
  rw [readItems] at read
  split at read
  · cases read
  next v further here =>
    have now : ∀ x ∈ v :: seen, Regular x := List.forall_mem_cons.2 ⟨value _ _ _ here, before⟩
    dsimp only at read
    split at read
    · cases read
      exact regular_arr fun x member => now x (List.mem_reverse.1 member)
    · split at read
      · cases read
      · exact items _ _ read now

/-- What is read is regular, if what was read before is: by induction on the fuel, which the
    readers of values, fields and items share. -/
theorem regular_of_reading (fuel : Nat) :
    (∀ cur j after, readValue fuel cur = .ok (j, after) → Regular j) ∧
    (∀ seen cur j after, readFields fuel seen cur = .ok (j, after) →
      (Mapping.keys seen).Nodup → (∀ kv ∈ seen, Regular kv.2) → Regular j) ∧
    (∀ seen cur j after, readItems fuel seen cur = .ok (j, after) →
      (∀ x ∈ seen, Regular x) → Regular j) := by
  induction fuel with
  | zero =>
    refine ⟨fun _ _ _ read => ?_, fun _ _ _ _ read => ?_, fun _ _ _ _ read => ?_⟩ <;> cases read
  | succ fuel ih =>
    obtain ⟨value, fields, items⟩ := ih
    refine ⟨fun cur j after => ?_, fun seen cur j after read nodup before => ?_,
      fun seen cur j after read before => ?_⟩
    · exact regular_readValue
        (fun cur read => fields _ cur j after read List.nodup_nil (by simp))
        (fun cur read => items _ cur j after read (by simp))
    · exact regular_readFields value (fun seen cur => fields seen cur j after) nodup before read
    · exact regular_readItems value (fun seen cur => items seen cur j after) before read

/-- A value that was read is regular. -/
theorem read_regular {content : Text} (read : Json.read content = .ok j) : Regular j := by
  have reading := readDocument_of_read read
  unfold readDocument at reading
  split at reading
  · cases reading
  · split at reading
    · cases reading
    next k cur value =>
      dsimp only at reading
      split at reading
      · cases reading
        exact (regular_of_reading _).1 _ _ _ value
      · cases reading

end Arabize.Json
