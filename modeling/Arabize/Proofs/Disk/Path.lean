import Arabize.Disk.Access
import Arabize.Proofs.Text.Split

/-! # The parts of a path

The path of the directory that a path is in is a beginning of the path, cut at a slash.  So
its components are the first components of the path, or it holds nothing but slashes.
-/

namespace Arabize

namespace Path

theorem baseName_eq_nil_of_slashes {p : Path} (slashes : ∀ c ∈ p, c = slash) :
    baseName p = [] := by
  unfold baseName
  cases reversed : p.reverse with
  | nil => rfl
  | cons c rest =>
    have first : c = slash := slashes c (List.mem_reverse.1 (reversed ▸ List.mem_cons_self))
    simp [first]

theorem ne_slash_of_mem_baseName {p : Path} {c : CodePoint} (member : c ∈ baseName p) :
    c ≠ slash := by
  have all := List.all_eq_true.1 (List.all_takeWhile (l := p.reverse) (p := (· != slash)))
  simpa using all c (List.mem_reverse.1 member)

theorem directory_begins (p : Path) : directory p <+: p := by
  have whole : (p.reverse.dropWhile (· != slash)).reverse <+: p := by
    have behind := (List.dropWhile_suffix (l := p.reverse) (· != slash)).reverse
    rwa [List.reverse_reverse] at behind
  unfold directory
  simp only [List.reverse_reverse]
  split
  · exact whole
  · refine List.IsPrefix.trans ?_ whole
    exact (List.dropWhile_suffix _).reverse

theorem parent_begins (p : Path) : (parentAndName p).1 <+: p := by
  unfold parentAndName
  split
  · dsimp only
    exact (directory_begins (directory p)).trans (directory_begins p)
  · dsimp only
    exact directory_begins p

/-- The directory of a path holds nothing but slashes, or the path goes on behind it. -/
theorem directory_cases (p : Path) : (∀ c ∈ directory p, c = slash) ∨
    ∃ rest, p = directory p ++ slash :: rest ∧ baseName p ⊆ rest := by
  have whole : (p.reverse.dropWhile (· != slash)).reverse ++ baseName p = p := by
    rw [baseName, ← List.reverse_append, List.takeWhile_append_dropWhile, List.reverse_reverse]
  have first := List.head?_dropWhile_not (· != slash) p.reverse
  unfold directory
  simp only [List.reverse_reverse]
  generalize p.reverse.dropWhile (· != slash) = head at whole first ⊢
  have slashes := List.all_eq_true.1 (List.all_takeWhile (l := head) (p := (· == slash)))
  have parts := List.takeWhile_append_dropWhile (l := head) (p := (· == slash))
  split
  -- Nothing but slashes stands before the last component.
  next none =>
    refine .inl fun c member => ?_
    rw [List.reverse_eq_nil_iff.1 none, List.append_nil] at parts
    rw [← parts, List.mem_reverse] at member
    simpa using slashes c member
  next filled =>
    refine .inr ?_
    -- What is taken off at the end of the directory starts with a slash.
    cases gap : (head.takeWhile (· == slash)).reverse with
    | nil =>
      cases head with
      | nil => exact absurd rfl filled
      | cons c rest =>
        have isSlash : c = slash := by simpa using first
        simp [isSlash] at gap
    | cons c gap' =>
      have isSlash : c = slash := by
        have inside : c ∈ head.takeWhile (· == slash) := by
          rw [← List.mem_reverse, gap]
          exact List.mem_cons_self
        simpa using slashes c inside
      refine ⟨gap' ++ baseName p, ?_, List.subset_append_right _ _⟩
      calc p = head.reverse ++ baseName p := whole.symm
        _ = (head.takeWhile (· == slash) ++ head.dropWhile (· == slash)).reverse ++ baseName p := by
          rw [parts]
        _ = (head.dropWhile (· == slash)).reverse ++ slash :: (gap' ++ baseName p) := by
          rw [List.reverse_append, gap, isSlash, List.append_assoc, List.cons_append]

/-- The same of the directory that a path with a name is in: what follows has a name in it. -/
theorem parent_cases {p : Path} (named : (parentAndName p).2 ≠ []) :
    (∀ c ∈ (parentAndName p).1, c = slash) ∨
      ∃ rest, p = (parentAndName p).1 ++ slash :: rest ∧ ¬ ∀ c ∈ rest, c = slash := by
  have goesOn : ∀ {name rest : Path}, name ≠ [] → (∀ c ∈ name, c ≠ slash) → name ⊆ rest →
      ¬ ∀ c ∈ rest, c = slash := by
    intro name rest filled other sub slashes
    obtain ⟨c, member⟩ := List.exists_mem_of_ne_nil name filled
    exact other c member (slashes c (sub member))
  unfold parentAndName at named ⊢
  split at named
  next bare =>
    rw [if_pos bare]
    dsimp only at named ⊢
    rcases directory_cases p with slashes | ⟨after, whole, _⟩
    · exact absurd (baseName_eq_nil_of_slashes slashes) named
    · rcases directory_cases (directory p) with slashes | ⟨rest, inner, sub⟩
      · exact .inl slashes
      · refine .inr ⟨rest ++ slash :: after, ?_, ?_⟩
        · calc p = directory p ++ slash :: after := whole
            _ = (directory (directory p) ++ slash :: rest) ++ slash :: after := by rw [← inner]
            _ = directory (directory p) ++ slash :: (rest ++ slash :: after) := by
              rw [List.append_assoc, List.cons_append]
        · exact goesOn named (fun c => ne_slash_of_mem_baseName) fun c member =>
            List.mem_append_left _ (sub member)
  next base =>
    rw [if_neg base]
    dsimp only at named ⊢
    rcases directory_cases p with slashes | ⟨rest, whole, sub⟩
    · exact .inl slashes
    · exact .inr ⟨rest, whole, goesOn named (fun c => ne_slash_of_mem_baseName) sub⟩

theorem isAbsolute_append {p : Path} (filled : p ≠ []) (q : Path) :
    isAbsolute (p ++ q) = isAbsolute p := by
  cases p with
  | nil => exact absurd rfl filled
  | cons c p => rfl

end Path

end Arabize
