import Mathlib.Data.List.Permutation
import Arabize.Proofs.Disk.Linkless
import Arabize.Proofs.Project.Guard

/-! # What is inside a directory

A real path is a normal text (`IsReal`): it starts with one slash, and none stands at its end unless
it is the path of the root.  So it is its names with slashes before them, and can be taken apart into
them and put together again.

The guard of a project compares two real paths as texts, one with a slash put behind it.  For each
directory but one that is a comparison of the names (`extendsReal_iff_names`), and a name that only
begins like another one does not count.  The exception is the root: its path ends with a slash
already, no real path starts with two, and so nothing but the root is taken to be inside it
(`isWithin_components`).
-/

namespace Arabize

variable {cs : List Text} {p real base : Path}

/-! ## Normal texts -/

namespace Path

/-- A path as a resolution gives it. -/
structure IsReal (p : Path) : Prop where
  absolute : isAbsolute p = true
  normal : normalize p = p
  single : ¬ [slash, slash] <+: p
  ending : p.getLast? = some slash → p = [slash]

theorem leadingSlashes_of_single (absolute : isAbsolute p = true)
    (single : ¬ [slash, slash] <+: p) : leadingSlashes p = [slash] := by
  have one : Text.startsWith p "//" = false := by
    rw [← Bool.not_eq_true, Text.startsWith_iff]
    exact single
  rw [leadingSlashes, absolute, one]
  rfl

theorem normalize_of_single (absolute : isAbsolute p = true) (single : ¬ [slash, slash] <+: p) :
    normalize p = ofLocation (normalComponents true [] (components p)) := by
  rw [normalize, leadingSlashes_of_single absolute single, absolute,
    if_neg (List.append_ne_nil_of_left_ne_nil (List.cons_ne_nil _ _) _)]
  rfl

theorem normalize_ofLocation (names : ∀ name ∈ cs, IsName name) :
    normalize (ofLocation cs) = ofLocation cs := by
  have pieces : components (ofLocation cs) = [] :: components (Text.intercalate [slash] cs) :=
    components_slash _
  rw [normalize_of_single rfl (Project.ofLocation_ne_slashes names), pieces,
    normalComponents_empty, normalComponents_intercalate names]

/-- The names of a location are read back from its path. -/
theorem names_ofLocation (proper : ∀ name ∈ cs, IsName name) : names (ofLocation cs) = cs := by
  by_cases unnamed : cs = []
  · subst unnamed
    rfl
  · rw [names, Project.components_ofLocation unnamed proper, List.filter_cons_of_neg (by simp)]
    refine List.filter_eq_self.2 fun name member => ?_
    simpa using (proper name member).1.1

/-- Behind the last slash of a location stands a name. -/
theorem getLast?_ofLocation (proper : ∀ name ∈ cs, IsName name) (below : cs ≠ []) :
    (ofLocation cs).getLast? ≠ some slash := by
  obtain ⟨init, name, rfl⟩ := (List.eq_nil_or_concat' cs).resolve_left below
  obtain ⟨⟨nonempty, _⟩, _, slashless⟩ := proper name (by simp)
  -- Before the last name stands the path of its directory, and a slash unless that is the root.
  have behind : ∃ front, ofLocation (init ++ [name]) = front ++ name := by
    by_cases single : init = []
    · subst single
      exact ⟨[slash], rfl⟩
    · rw [Project.ofLocation_append single (List.cons_ne_nil _ _)]
      exact ⟨ofLocation init ++ [slash], by simp [Text.intercalate]⟩
  obtain ⟨front, whole⟩ := behind
  rw [whole, List.getLast?_append_of_ne_nil _ nonempty]
  exact fun last => slashless (List.mem_of_getLast? last)

theorem isReal_ofLocation (proper : ∀ name ∈ cs, IsName name) : IsReal (ofLocation cs) where
  absolute := rfl
  normal := normalize_ofLocation proper
  single := Project.ofLocation_ne_slashes proper
  ending := by
    intro last
    by_cases unnamed : cs = []
    · rw [unnamed]
      rfl
    · exact absurd last (getLast?_ofLocation proper unnamed)

/-- A real path is its names with slashes before them. -/
theorem IsReal.parts (isReal : IsReal p) :
    ofLocation (names p) = p ∧ ∀ name ∈ names p, IsName name := by
  have proper := isName_of_normal p
  have whole : ofLocation (normalComponents true [] (components p)) = p := by
    rw [← normalize_of_single isReal.absolute isReal.single, isReal.normal]
  have same : names p = normalComponents true [] (components p) := by
    conv => lhs; rw [← whole]
    exact names_ofLocation proper
  rw [same]
  exact ⟨whole, proper⟩

theorem IsReal.eq_root_iff (isReal : IsReal p) : p = [slash] ↔ names p = [] := by
  constructor
  · rintro rfl
    rfl
  · intro unnamed
    rw [← isReal.parts.1, unnamed]
    rfl

end Path

theorem Disk.isReal_of_realPathOf {d : Disk} (given : d.realPathOf p = .ok real) :
    Path.IsReal real := by
  unfold Disk.realPathOf at given
  split at given
  · cases given
  · cases given
    exact Path.isReal_ofLocation (isName_of_mem_realNames d p)

namespace Project

open Arabize.Path (IsReal names slash)

variable {d : Disk} {root : Path}

/-! ## Real paths inside one another -/

/-- To extend a real path is to begin with its names, except that only the root extends the root. -/
theorem extendsReal_iff_names (outer : IsReal base) (inner : IsReal real) :
    extendsReal base real = true ↔
      names base <+: names real ∧ (base = [slash] → real = [slash]) := by
  have compared := extendsReal_iff outer.parts.2 inner.parts.2
  rw [outer.parts.1, inner.parts.1] at compared
  rw [compared, outer.eq_root_iff, inner.eq_root_iff]
  constructor
  · rintro (same | ⟨named, begins⟩)
    · rw [same]
      exact ⟨List.prefix_refl _, id⟩
    · exact ⟨begins, fun unnamed => absurd unnamed named⟩
  · rintro ⟨begins, onlyRoot⟩
    by_cases unnamed : names base = []
    · exact .inl ((onlyRoot unnamed).trans unnamed.symm)
    · exact .inr ⟨unnamed, begins⟩

example : extendsReal "/site" "/site/home.json" = true ∧
    extendsReal "/site" "/site2/home.json" = false ∧ extendsReal "/" "/site" = false := by
  decide

/-- Beside a directory stand others whose names only begin like its own. -/
theorem not_prefix_of_longer {more : Text} (longer : more ≠ []) (dir : List Text) (name : Text)
    (below : List Text) : ¬ dir ++ [name] <+: dir ++ (name ++ more) :: below := by
  rw [List.prefix_append_right_inj, List.cons_prefix_cons]
  rintro ⟨same, _⟩
  exact longer (List.self_eq_append_right.1 same)

/-- For all paths that have a real path, the check whether one is inside the other gives an answer.
    A path is inside exactly if its real path begins with the names of the directory, and is that of
    the root if the directory is the root.  So the answer is that of the names alone unless the
    directory is the root and the path is not; and what stands beside a directory, under a name that
    only begins like the directory's, is outside. -/
theorem isWithin_components (given : d.realPathOf p = .ok real)
    (also : d.realPathOf root = .ok base) :
    (IsReal real ∧ IsReal base) ∧ ∃ inside, isWithin d root p = .ok inside ∧
      (inside = true ↔ names base <+: names real ∧ (base = [slash] → real = [slash])) ∧
      ((inside = true ↔ names base <+: names real) ↔ (base = [slash] → real = [slash])) ∧
      ∀ dir name more below, names base = dir ++ [name] →
        names real = dir ++ (name ++ more) :: below → more ≠ [] → inside = false := by
  have inner := Disk.isReal_of_realPathOf given
  have outer := Disk.isReal_of_realPathOf also
  have exactly := extendsReal_iff_names outer inner
  refine ⟨⟨inner, outer⟩, extendsReal base real, ?_, exactly, ?_, ?_⟩
  · rw [isWithin, given, also]
    rfl
  · rw [exactly]
    constructor
    · intro same isRoot
      -- The root has no names, and every path begins with none.
      have unnamed : names base = [] := outer.eq_root_iff.1 isRoot
      exact (same.2 (unnamed ▸ List.nil_prefix)).2 isRoot
    · intro onlyRoot
      exact and_iff_left onlyRoot
  · intro dir name more below directory beside longer
    refine Bool.eq_false_iff.2 fun within => not_prefix_of_longer longer dir name below ?_
    have begins := (exactly.1 within).1
    rwa [directory, beside] at begins

/-- A project that a link leads to. -/
def linkedSite : Disk := ⟨"/site", [(["site"], .directory),
  (["site", "home.json"], .file [0x31]), (["link"], .link "site")]⟩

/-- A file of a project is not inside the root, though its names begin like those of the root. -/
theorem isWithin_components_root :
    linkedSite.realPathOf "/link/home.json" = .ok (Text.ofString "/site/home.json") ∧
      linkedSite.realPathOf "/" = .ok (Text.ofString "/") ∧
      names "/" <+: names "/site/home.json" ∧
      isWithin linkedSite "/" "/link/home.json" = .ok false := by
  have given : linkedSite.realPathOf "/link/home.json" =
      .ok (Text.ofString "/site/home.json") := by cbv
  have also : linkedSite.realPathOf "/" = .ok (Text.ofString "/") := by cbv
  obtain ⟨_, inside, checked, exactly, _⟩ := isWithin_components given also
  have outside : inside = false := by
    refine Bool.eq_false_iff.2 fun within => ?_
    have isRoot := (exactly.1 within).2 (by decide)
    revert isRoot
    decide
  exact ⟨given, also, by decide, outside ▸ checked⟩

end Project

end Arabize
