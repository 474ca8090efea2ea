import Arabize.Project.Kind
import Arabize.Proofs.Disk.Path
import Arabize.Proofs.Text.Search

/-! # Names of renditions

A file of a known kind has an extension, which is in its last component.  So the name of its
rendition is that of a rendition (`isRendition_rendition`), and no file that is translated has
such a name.
-/

namespace Arabize

namespace Path

/-- The last component of a path ends as the path does, up to a slash. -/
theorem suffix_baseName {front t : Text} (free : slash ∉ t) : t <:+ baseName (front ++ t) := by
  have kept : ∀ c ∈ t.reverse, (c != slash) = true := by
    intro c member
    simp only [bne_iff_ne, ne_eq]
    rintro rfl
    exact free (List.mem_reverse.1 member)
  rw [baseName, List.reverse_append, List.takeWhile_append_of_pos kept, List.reverse_append,
    List.reverse_reverse]
  exact List.suffix_append _ _

theorem baseName_suffix (p : Path) : baseName p <:+ p := by
  have front := (List.takeWhile_prefix (l := p.reverse) (· != slash)).reverse
  rwa [List.reverse_reverse] at front

/-- An extension that is not empty is a dot and what follows it in the last component. -/
theorem extension_cases (p : Path) : extension p = [] ∨
    ∃ more, extension p = CodePoint.ofChar '.' :: more ∧ slash ∉ extension p := by
  unfold extension splitExtension
  dsimp only
  generalize (baseName p).takeWhile (· == CodePoint.ofChar '.') = dots
  have inside : (baseName p).drop dots.length <:+ p :=
    (List.drop_suffix _ _).trans (baseName_suffix p)
  have free : slash ∉ (baseName p).drop dots.length := fun member =>
    ne_slash_of_mem_baseName (List.mem_of_mem_drop member) rfl
  generalize (baseName p).drop dots.length = stem at inside free
  obtain ⟨front, rfl⟩ := inside
  split
  next i found =>
    obtain ⟨more, begins⟩ := Text.prefix_of_findLast? found
    have cut : (front ++ stem).drop ((front ++ stem).length - stem.length + i) = stem.drop i := by
      simp [List.drop_append]
    rw [cut]
    exact .inr ⟨more, begins.symm, fun member => free (List.mem_of_mem_drop member)⟩
  · exact .inl rfl

/-- The rendition of a file of a known kind has the name of one. -/
theorem isRendition_rendition {p : Path} (known : FileKind.ofPath p ≠ .unknown) :
    isRendition (rendition p) = true := by
  rcases extension_cases p with bare | ⟨more, dotted, free⟩
  · refine absurd ?_ known
    rw [FileKind.ofPath, bare]
    decide
  · have mark : slash ∉ renditionMark := by decide
    have named : slash ∉ renditionMark ++ extension p := by simp [mark, free]
    have ends : renditionMark ++ extension p <:+ baseName (rendition p) := by
      rw [rendition, List.append_assoc]
      exact suffix_baseName named
    rw [isRendition, Text.occursIn_iff]
    refine List.IsInfix.trans ?_ ends.isInfix
    rw [dotted]
    exact ⟨[], more, by simp [Text.ofString]⟩

end Path

end Arabize
