import Arabize.Disk.Access
import Arabize.Proofs.Runs
import Arabize.Proofs.Text.Encodable

/-! # What is refused and what cannot be asked

A path that can be passed to the system (`Passable`) is never at fault itself: whatever goes
wrong with it, making directories, opening or removing a file, is a refusal of the system.
A change that fails for another reason `Balks`.  Of a file that is written only a text without
an encoding can be the reason.
-/

namespace Arabize

open Utf8 (Encodable)

namespace Path

theorem directory_subset (p : Path) : directory p ⊆ p := by
  intro c member
  dsimp only [directory] at member
  have head : ∀ q : Path, q ⊆ p.reverse → c ∈ q.reverse → c ∈ p := fun q sub inside =>
    List.mem_reverse.1 (sub (List.mem_reverse.1 inside))
  split at member
  · exact head _ (List.dropWhile_subset _) member
  · refine head _ (fun x inside => ?_) member
    rw [List.reverse_reverse] at inside
    exact (List.dropWhile_subset _) ((List.dropWhile_subset _) inside)

theorem parent_subset (p : Path) : (parentAndName p).1 ⊆ p := by
  unfold parentAndName
  split
  · exact List.Subset.trans (directory_subset _) (directory_subset p)
  · exact directory_subset p

theorem size_append (p q : Path) : size (p ++ q) = size p + size q := by
  induction p with
  | nil => rw [List.nil_append, size, Nat.zero_add]
  | cons c p ih => rw [List.cons_append, size, size, ih, Nat.add_assoc]

end Path

namespace Disk

/-! ## Paths -/

/-- A code point that a path can hold: not zero, and no surrogate unless it stands for a byte. -/
def CanStand (c : CodePoint) : Prop := (c.isSurrogate = true → Path.isEscape c = true) ∧ c ≠ 0

instance (c : CodePoint) : Decidable (CanStand c) := inferInstanceAs (Decidable (_ ∧ _))

/-- A path that can be passed to the system. -/
def Passable (p : Path) : Prop := ∀ c ∈ p, CanStand c

instance (p : Path) : Decidable (Passable p) := List.decidableBAll CanStand p

theorem Passable.of_subset {p q : Path} (passable : Passable p) (sub : q ⊆ p) : Passable q :=
  fun c inside => passable c (sub inside)

theorem passable_append {p q : Path} : Passable (p ++ q) ↔ Passable p ∧ Passable q :=
  List.forall_mem_append

theorem firstStray_eq_none_iff (start : Nat) (p : Path) :
    Path.firstStray start p = none ↔ ∀ c ∈ p, c.isSurrogate = true → Path.isEscape c = true := by
  induction p generalizing start with
  | nil => simp [Path.firstStray]
  | cons c p ih =>
    rw [List.forall_mem_cons, ← ih (start + 1), Path.firstStray]
    cases surrogate : c.isSurrogate <;> cases escape : Path.isEscape c <;> simp

theorem passPath_eq_ok_iff (p : Path) : passPath p = .ok () ↔ Passable p := by
  have both : Passable p ↔
      (∀ c ∈ p, c.isSurrogate = true → Path.isEscape c = true) ∧ (0 : CodePoint) ∉ p := by
    simp only [Passable, CanStand, forall_and, ne_eq]
    exact and_congr_right fun _ => ⟨fun all zero => all 0 zero rfl, fun absent c member zero =>
      absent (zero ▸ member)⟩
  rw [both, ← firstStray_eq_none_iff 0, passPath]
  cases Path.firstStray 0 p with
  | some e => simp
  | none => by_cases zero : (0 : CodePoint) ∈ p <;> simp [zero]

theorem passPath_error {p : Path} {e : AccessError} (failed : passPath p = .error e) :
    e.isRefusal = false := by
  unfold passPath at failed
  split at failed
  · cases failed
    rfl
  · split at failed
    · cases failed
      rfl
    · cases failed

theorem locate_error_iff {d : Disk} {aim : Aim} {p : Path} {e : AccessError}
    (failed : d.locate aim p = .error e) : e.isRefusal = true ↔ Passable p := by
  unfold locate at failed
  cases passed : passPath p with
  | error f =>
    rw [passed] at failed
    cases failed
    rw [← passPath_eq_ok_iff, passPath_error passed, passed]
    simp
  | ok =>
    rw [passed] at failed
    refine iff_of_true ?_ ((passPath_eq_ok_iff p).1 passed)
    cases found : d.find aim p <;> rw [found] at failed <;> cases failed
    rfl

/-! ## Changes -/

/-- A change fails, and not because the system refuses. -/
def Balks {α : Type} (change : Change α) (d : Disk) : Prop :=
  ∃ e, (change d).1 = .error e ∧ e.isRefusal = false

variable {p : Path} {d : Disk}

theorem makeDirectory_not_balks (passable : Passable p) (d : Disk) :
    ¬ Balks (makeDirectory p) d := by
  rintro ⟨e, failed, unexpected⟩
  unfold makeDirectory at failed
  split at failed
  · cases failed
  · split at failed
    · cases failed
    · cases failed
      cases unexpected
  next located =>
    split at failed
    · cases failed
    · cases failed
      rw [(locate_error_iff located).2 passable] at unexpected
      cases unexpected

theorem makeDirectories_not_balks (passable : Passable p) (d : Disk) :
    ¬ Balks (makeDirectories p) d := by
  unfold Balks
  -- Every path that is tried on the way is a part of the first one.
  fun_induction makeDirectories p d with
  | case1 p => exact makeDirectory_not_balks passable d
  | case2 p => exact makeDirectory_not_balks passable d
  | case3 => simp
  | case4 p => exact makeDirectory_not_balks passable _
  | case5 p head name named below after e failed other ih =>
    have same := ih (passable.of_subset (Path.parent_subset p))
    rwa [failed] at same
  | case6 => simp
  | case7 p => exact makeDirectory_not_balks passable _

theorem createFile_not_balks (passable : Passable p) (d : Disk) : ¬ Balks (createFile p) d := by
  rintro ⟨e, failed, unexpected⟩
  unfold createFile at failed
  split at failed
  · cases failed
  · cases failed
    cases unexpected
  · cases failed
  next located =>
    cases failed
    rw [(locate_error_iff located).2 passable] at unexpected
    cases unexpected

/-- The removal of a file balks at its path only. -/
theorem remove_balks_iff (p : Path) (d : Disk) : Balks (remove p) d ↔ ¬ Passable p := by
  unfold Balks remove
  cases located : d.locate .removal p with
  | error e =>
    rw [← locate_error_iff located]
    simp
  | ok spot =>
    -- A path that was located could be passed, and only refusals are left.
    have passable : Passable p := by
      refine (passPath_eq_ok_iff p).1 ?_
      cases passed : passPath p with
      | ok => rfl
      | error e =>
        rw [locate, passed] at located
        cases located
    refine iff_of_false ?_ (fun stuck => stuck passable)
    rintro ⟨e, failed, unexpected⟩
    cases spot with
    | free loc =>
      cases failed
      cases unexpected
    | there loc entry =>
      cases entry with
      | directory =>
        cases failed
        cases unexpected
      | file bytes => cases failed
      | link target => cases failed

/-! ## Texts -/

theorem encodePieces_error_iff (pieces : List Text) :
    (∃ e, (encodePieces pieces).2 = some e) ↔ ∃ t ∈ pieces, ¬ Encodable t := by
  induction pieces with
  | nil => simp [encodePieces]
  | cons t rest ih =>
    simp only [List.mem_cons, exists_eq_or_imp, ← ih, encodePieces]
    cases encoded : Utf8.encode t with
    | error e =>
      refine iff_of_true ⟨e, rfl⟩ (.inl fun encodable => ?_)
      rw [Utf8.encode_of_encodable encodable] at encoded
      cases encoded
    | ok bytes =>
      have encodable := (Utf8.encode_eq_ok_iff.1 encoded).1
      simp [encodable]

/-- A file that can be opened balks at a piece of text that has no encoding. -/
theorem writePieces_balks_iff (passable : Passable p) (pieces : List Text) :
    Balks (writePieces p pieces) d ↔
      Returns (createFile p) d ∧ ∃ t ∈ pieces, ¬ Encodable t := by
  rw [← encodePieces_error_iff, Balks, writePieces]
  rcases created : createFile p d with ⟨e | loc, opened⟩
  · rw [bind_of_error created]
    refine iff_of_false ?_ fun both => not_returns_of_error created both.1
    rintro ⟨f, same, unexpected⟩
    cases same
    exact createFile_not_balks passable d ⟨e, by rw [created], unexpected⟩
  · rw [bind_of_ok created]
    -- The file is open; what can still fail is a piece without an encoding.
    have returns : Returns (createFile p) d := ⟨loc, opened, created⟩
    rcases encodePieces pieces with ⟨bytes, _ | e⟩
    · refine iff_of_false ?_ (by simp)
      rintro ⟨f, same, _⟩
      cases same
    · exact iff_of_true ⟨.unencodable e, rfl, rfl⟩ ⟨returns, e, rfl⟩

theorem encodable_readText {t : Text} (read : d.readText p = .ok t) : Encodable t := by
  unfold readText at read
  split at read
  · cases read
  · split at read
    next decoded =>
      cases read
      exact Text.encodable_normalizeBreaksFrom _ (Utf8.encodable_decode decoded)
    · cases read

end Disk

end Arabize
