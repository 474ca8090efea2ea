import Arabize.Proofs.Disk.Following
import Arabize.Proofs.Lexicon.HandOff

/-! # What files of words leave alone

A file of words is written where its path leads once its directories are made, and the hand-off
file is removed by its path.  Either way no file changes but the one that the path names, and
no link but one that is removed.
-/

namespace Arabize

open Disk (Adds Lands Names)

variable {d c b : Disk} {p : Path} {l : Location}

namespace Disk

/-- The same file stands at a location, or none. -/
def SameAt (d c : Disk) (l : Location) : Prop :=
  ∀ bytes, c.entry? l = some (.file bytes) ↔ d.entry? l = some (.file bytes)

theorem SameAt.refl (d : Disk) (l : Location) : SameAt d d l := fun _ => .rfl

theorem SameAt.trans (first : SameAt d c l) (second : SameAt c b l) : SameAt d b l :=
  fun bytes => (second bytes).trans (first bytes)

theorem sameAt_of_entry (same : c.entry? l = d.entry? l) : SameAt d c l := by
  intro bytes
  rw [same]

theorem Adds.sameAt (adds : Adds d c) (l : Location) : SameAt d c l := fun _ => adds.file_iff

end Disk

open Disk (SameAt)

namespace Store

/-- At most directories were made, or a file was written where its path leads then. -/
theorem write_disk (p : Path) (m : Mapping Json) (d : Disk) : Adds d (write p m d).2 ∨
    ∃ made k bytes, Adds d made ∧ Lands made p k ∧ (write p m d).2 = made.put k (.file bytes) := by
  have adds := Disk.makeDirectories_adds (directoryOf p) d
  rcases directories : Disk.makeDirectories (directoryOf p) d with ⟨e | _, made⟩
  · rw [write, bind_of_error directories]
    rw [directories] at adds
    exact .inl adds
  · rw [write, bind_of_ok directories]
    rw [directories] at adds
    rcases Disk.writePieces_cases p (Json.pieces m) made with ⟨e, _, failed⟩ | ⟨k, lands, done⟩
    · rw [failed]
      exact .inl adds
    · rw [done]
      exact .inr ⟨made, k, _, adds, lands, rfl⟩

/-- No link comes or goes with a file of words. -/
theorem write_links (p : Path) (m : Mapping Json) (d : Disk) :
    (write p m d).2.cwd = d.cwd ∧ ∀ l, (write p m d).2.link? l = d.link? l := by
  rcases write_disk p m d with adds | ⟨made, k, bytes, adds, lands, done⟩
  · exact ⟨adds.cwd, adds.link?⟩
  · rw [done]
    have alike := Disk.Alike.put made lands.writable bytes
    exact ⟨alike.cwd.trans adds.cwd, fun l => (alike.link? l).trans (adds.link? l)⟩

/-- Only the file that the path names is written. -/
theorem write_same (m : Mapping Json) (other : ¬ Names d p l) : SameAt d (write p m d).2 l := by
  rcases write_disk p m d with adds | ⟨made, k, bytes, adds, lands, done⟩
  · exact adds.sameAt l
  · have apart : l ≠ k := by
      rintro rfl
      exact other (lands.names.of_link? adds.cwd.symm fun j => (adds.link? j).symm)
    rw [done]
    exact (adds.sameAt l).trans (Disk.sameAt_of_entry (Disk.entry?_put_of_ne made apart _))

theorem deleteHandOff_same (other : ¬ Names d p l) : SameAt d (deleteHandOff p d).2 l := by
  rcases deleteHandOff_cases p d with same | ⟨k, e, flat, found, same⟩
  · rw [same]
    exact .refl d l
  · rw [same]
    have named := Disk.ne_nil_of_locate flat found
    by_cases here : l = k
    · subst here
      cases e with
      | directory => exact absurd rfl flat
      | file bytes => exact absurd (Disk.names_of_removal found) other
      | link target =>
        -- Where a link was removed, no file was.
        have leads := (Disk.locate_eq_ok_iff.1 found).2
        have there : d.entry? l = some (.link target) :=
          (Disk.Leads.entry? leads).resolve_left (by simp [Disk.Spot.entry?])
        intro bytes
        simp [Disk.entry?_erase d named, there]
    · exact Disk.sameAt_of_entry (by rw [Disk.entry?_erase d named, if_neg here])

/-- Links are left as they are, but for one that is removed. -/
theorem deleteHandOff_links (p : Path) (d : Disk) : (deleteHandOff p d).2.cwd = d.cwd ∧
    ∀ l, (deleteHandOff p d).2.link? l = d.link? l ∨ (deleteHandOff p d).2.link? l = none := by
  rcases deleteHandOff_cases p d with same | ⟨k, e, flat, found, same⟩
  · rw [same]
    exact ⟨rfl, fun l => .inl rfl⟩
  · rw [same]
    refine ⟨rfl, fun l => ?_⟩
    have named := Disk.ne_nil_of_locate flat found
    by_cases here : l = k
    · refine .inr (Disk.link?_eq_none_of_entry (e := none) ?_ (by simp))
      rw [Disk.entry?_erase d named, if_pos here]
    · exact .inl (Disk.link?_congr (by rw [Disk.entry?_erase d named, if_neg here]))

/-- A hand-off file that has come and gone has left all files alone but the one that its path
    names. -/
theorem handOff_same (words : List Text) (other : ¬ Names d p l) :
    SameAt d (deleteHandOff p (saveHandOff words p d).2).2 l := by
  obtain ⟨cwd, links⟩ :=
    write_links p (Mapping.ofPairs ((Text.sort words).map fun w => (w, .str []))) d
  refine (write_same _ other).trans (deleteHandOff_same fun names => other ?_)
  exact names.of_link? cwd.symm fun j => (links j).symm

end Store

end Arabize
