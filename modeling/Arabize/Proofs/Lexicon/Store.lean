import Arabize.Lexicon.Store
import Arabize.Proofs.Disk.Access

/-! # Words that cannot be kept

A file of words is written key by key and value by value.  Escapes do not bring a surrogate
in and do not take one away, so the file is written, unless the system refuses, exactly if
every key and every value can be encoded (`write_balks_iff`).
-/

namespace Arabize

open Utf8 (Encodable encodable_cons encodable_append)

namespace Json

/-! ## Pieces -/

theorem isSurrogate_digit {n : Nat} (small : n < 16) : (Text.digit n).isSurrogate = false := by
  rw [Utf8.isSurrogate_eq_false_iff]
  revert n
  decide

theorem encodable_hexFixed (k n : Nat) : Encodable (Text.hexFixed k n) := by
  induction k generalizing n with
  | zero => exact Utf8.encodable_nil
  | succ k ih =>
    rw [Text.hexFixed, encodable_append, encodable_cons]
    exact ⟨ih _, isSurrogate_digit (Nat.mod_lt n (by decide)), Utf8.encodable_nil⟩

theorem shortEscape?_eq_some {c e : CodePoint} (escaped : shortEscape? c = some e) :
    c.isSurrogate = false ∧ e.isSurrogate = false := by
  unfold shortEscape? at escaped
  repeat' split at escaped
  all_goals cases escaped
  all_goals
    rename_i same
    refine ⟨?_, Utf8.isSurrogate_ofChar _⟩
    first
      | exact same ▸ Utf8.isSurrogate_ofChar _
      | exact (Utf8.isSurrogate_eq_false_iff c).2 (.inl (by omega))

theorem encodable_writeChar_iff (c : CodePoint) :
    Encodable (writeChar c) ↔ c.isSurrogate = false := by
  unfold writeChar
  cases escaped : shortEscape? c with
  | some e =>
    obtain ⟨here, there⟩ := shortEscape?_eq_some escaped
    simp [here, there, Utf8.isSurrogate_ofChar]
  | none =>
    dsimp only
    split
    next low =>
      refine iff_of_true ?_ ((Utf8.isSurrogate_eq_false_iff c).2 (.inl (by omega)))
      exact encodable_cons.2 ⟨Utf8.isSurrogate_ofChar _,
        encodable_cons.2 ⟨Utf8.isSurrogate_ofChar _, encodable_hexFixed 4 _⟩⟩
    · simp

theorem encodable_writeText_iff (t : Text) : Encodable (writeText t) ↔ Encodable t := by
  have quotes : Encodable quoteMark := Utf8.encodable_ofString _
  have inside : Encodable (t.flatMap writeChar) ↔ Encodable t := by
    induction t with
    | nil => simp
    | cons c t ih => rw [List.flatMap_cons, encodable_append, encodable_cons, ih,
        encodable_writeChar_iff]
  simp only [writeText, encodable_append, quotes, inside, true_and, and_true]

/-! ## Objects of texts -/

/-- A mapping whose values are texts. -/
def Textual (m : Mapping Json) : Prop := ∀ kv ∈ m, ∃ t, kv.2 = .str t

theorem textual_textValues (m : Mapping Text) : Textual (textValues m) := by
  intro kv member
  obtain ⟨pair, _, rfl⟩ := List.mem_map.1 member
  exact ⟨pair.2, rfl⟩

theorem Textual.insert {m : Mapping Json} (textual : Textual m) (key t : Text) :
    Textual (m.insert key (.str t)) := by
  induction m with
  | nil => simp [Mapping.insert, Textual]
  | cons kv rest ih =>
    obtain ⟨here, behind⟩ := List.forall_mem_cons.1 textual
    rw [Mapping.insert]
    split
    · exact List.forall_mem_cons.2 ⟨⟨t, rfl⟩, behind⟩
    · exact List.forall_mem_cons.2 ⟨here, ih behind⟩

theorem Textual.update {m new : Mapping Json} (textual : Textual m) (texts : Textual new) :
    Textual (m.update new) := by
  unfold Mapping.update
  induction new generalizing m with
  | nil => exact textual
  | cons kv rest ih =>
    obtain ⟨⟨t, same⟩, behind⟩ := List.forall_mem_cons.1 texts
    rw [List.foldl_cons, same]
    exact ih (textual.insert kv.1 t) behind

/-- A key or a value that has no encoding. -/
def Unencodable (kv : Text × Json) : Prop :=
  ¬ Encodable kv.1 ∨ ∃ t, kv.2 = .str t ∧ ¬ Encodable t

theorem fieldPieces_iff {kv : Text × Json} (text : ∃ t, kv.2 = .str t) :
    (∃ piece ∈ fieldPieces kv, ¬ Encodable piece) ↔ Unencodable kv := by
  obtain ⟨key, value⟩ := kv
  obtain ⟨t, rfl⟩ := text
  have mark : Encodable keyMark := Utf8.encodable_ofString _
  have line : Encodable (newline 1) := by decide
  simp [fieldPieces, Unencodable, writeAt, encodable_writeText_iff, mark, line]

theorem morePieces_iff {m : Mapping Json} (textual : Textual m) :
    (∃ piece ∈ morePieces m, ¬ Encodable piece) ↔ ∃ kv ∈ m, Unencodable kv := by
  induction m with
  | nil => simp [morePieces]
  | cons kv rest ih =>
    obtain ⟨here, behind⟩ := List.forall_mem_cons.1 textual
    have comma : Encodable ("," : Text) := Utf8.encodable_ofString _
    simp only [morePieces, List.mem_append, List.mem_cons, or_and_right, exists_or,
      exists_eq_left, comma, not_true, false_or, fieldPieces_iff here, ih behind]

theorem pieces_iff {m : Mapping Json} (textual : Textual m) :
    (∃ piece ∈ pieces m, ¬ Encodable piece) ↔ ∃ kv ∈ m, Unencodable kv := by
  cases m with
  | nil =>
    have braces : Encodable ("\x7b\x7d" : Text) := Utf8.encodable_ofString _
    simp [pieces, braces]
  | cons kv rest =>
    obtain ⟨here, behind⟩ := List.forall_mem_cons.1 textual
    have head : Encodable ("\x7b" : Text) := Utf8.encodable_ofString _
    have line : Encodable (newline 0) := by decide
    have tail : Encodable ("\x7d" : Text) := Utf8.encodable_ofString _
    simp only [pieces, List.mem_append, List.mem_cons, or_and_right, exists_or, exists_eq_left,
      head, line, tail, not_true, false_or, or_false, fieldPieces_iff here,
      morePieces_iff behind, List.not_mem_nil]

end Json

/-- There are no strays among texts. -/
theorem Vocabulary.straysIn_textual {m : Mapping Json} (textual : Json.Textual m) :
    straysIn m = [] := by
  refine List.filter_eq_nil_iff.2 fun kv member => ?_
  obtain ⟨t, same⟩ := textual kv member
  rw [same]
  exact Bool.false_ne_true

namespace Store

open Disk (Balks Passable)

variable {p : Path} {d : Disk}

/-- A file of words is opened for writing, its directories made. -/
def Opens (p : Path) (d : Disk) : Prop :=
  ∃ made, Disk.makeDirectories (directoryOf p) d = (.ok (), made) ∧
    Returns (Disk.createFile p) made

theorem passable_directoryOf (passable : Passable p) : Passable (directoryOf p) := by
  unfold directoryOf
  split
  · decide
  · exact passable.of_subset (Path.directory_subset p)

/-- Words cannot be kept in a file that is opened exactly if one of them has no encoding. -/
theorem write_balks_iff (passable : Passable p) {m : Mapping Json} (textual : Json.Textual m) :
    Balks (write p m) d ↔ Opens p d ∧ ∃ kv ∈ m, Json.Unencodable kv := by
  rw [← Json.pieces_iff textual, Opens, Balks, write]
  rcases made : Disk.makeDirectories (directoryOf p) d with ⟨e | _, after⟩
  · rw [bind_of_error made]
    -- The directories are made by a path that can be passed.
    refine iff_of_false ?_ ?_
    · rintro ⟨f, same, unexpected⟩
      cases same
      exact Disk.makeDirectories_not_balks (passable_directoryOf passable) d
        ⟨e, by rw [made], unexpected⟩
    · rintro ⟨⟨made, opened, _⟩, _⟩
      cases opened
  · rw [bind_of_ok made]
    have opened := Disk.writePieces_balks_iff (d := after) passable (Json.pieces m)
    constructor
    · intro balks
      obtain ⟨returns, stuck⟩ := opened.1 balks
      exact ⟨⟨after, rfl, returns⟩, stuck⟩
    · rintro ⟨⟨_, same, returns⟩, stuck⟩
      cases same
      exact opened.2 ⟨returns, stuck⟩

/-- A hand-off file can be removed, or the removal is refused, unless its path is at fault. -/
theorem deleteHandOff_balks_iff (p : Path) (d : Disk) :
    Balks (deleteHandOff p) d ↔ ¬ Passable p := by
  rw [← Disk.remove_balks_iff p d, Balks, Balks, deleteHandOff]
  rcases Disk.remove p d with ⟨e | _, after⟩
  · cases e with
    | refused why path => cases why <;> simp [AccessError.isRefusal]
    | zeroInPath => simp
    | unencodable e => simp
    | undecodable e => simp
  · simp

end Store

end Arabize
