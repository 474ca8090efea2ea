import Arabize.Proofs.Disk.Beside
import Arabize.Proofs.Lexicon.Store

/-! # A hand-off file that comes and goes

The hand-off file is written where its path leads to, and what is removed is the entry that
the path names: a link is taken away, not the file behind it.  These two locations are all
that is touched (`Touches`), whether or not the file could be written.
-/

namespace Arabize.Disk

/-- The locations that a file made at a path and removed again touches: the file that is
    written, and the entry that is removed. -/
def Touches (d : Disk) (p : Path) (l : Location) : Prop :=
  Lands d p l ∨ ∃ e, d.locate .removal p = .ok (.there l e)

variable {d c : Disk} {p : Path}

theorem remove_cases (p : Path) (d : Disk) :
    (∃ e, remove p d = (.error e, d)) ∨
      ∃ l e, e ≠ .directory ∧ d.locate .removal p = .ok (.there l e) ∧
        remove p d = (.ok (), d.erase l) := by
  unfold remove
  rcases found : d.locate .removal p with e | ⟨l, _ | _ | _⟩ | l
  case ok.there.file => exact .inr ⟨l, _, by simp, rfl, rfl⟩
  case ok.there.link => exact .inr ⟨l, _, by simp, rfl, rfl⟩
  all_goals exact .inl ⟨_, rfl⟩

/-- What is removed once a file was made is the file, or a link that was there before. -/
theorem removed_of_made {l : Location} (lands : Lands d p l) (bytes : Bytes) {k : Location}
    {e : Entry} (found : (d.put l (.file bytes)).locate .removal p = .ok (.there k e)) :
    k = l ∨ ∃ target, e = .link target ∧ d.locate .removal p = .ok (.there k e) := by
  obtain ⟨spot, made, writable, rfl⟩ := lands
  obtain ⟨walkable, leads⟩ := locate_eq_ok_iff.1 made
  obtain ⟨j, f, there, same⟩ := leads.removal_after writable bytes
  have also : (d.put spot.location (.file bytes)).locate .removal p = .ok (.there j f) :=
    locate_eq_ok_iff.2 ⟨walkable, there⟩
  rw [found] at also
  cases also
  rcases same with rfl | ⟨target, isLink, was⟩
  · exact .inl rfl
  · exact .inr ⟨target, isLink, locate_eq_ok_iff.2 ⟨walkable, was⟩⟩

theorem touches_of_made {l : Location} (lands : Lands d p l) (bytes : Bytes) {k : Location}
    {e : Entry} (found : (d.put l (.file bytes)).locate .removal p = .ok (.there k e)) :
    Touches d p k := by
  rcases removed_of_made lands bytes found with rfl | ⟨_, _, was⟩
  · exact .inl lands
  · exact .inr ⟨e, was⟩

/-- Two disks with one entry rewritten, or taken away, hold the same elsewhere. -/
theorem Beside.of_entry {away : Location → Prop} (cwd : c.cwd = d.cwd)
    (same : ∀ l, ¬ away l → c.entry? l = d.entry? l) : Beside away d c d :=
  ⟨cwd, rfl, same, fun l outside => link?_congr (same l outside)⟩

end Arabize.Disk

namespace Arabize.Store

open Disk (Touches Beside Lands)

variable {d : Disk} {p : Path}

theorem write_of_lands {m : Mapping Json} {l : Location} {bytes : Bytes}
    (directory : d.isDirectory (directoryOf p) = true) (lands : Lands d p l)
    (encoded : Disk.encodePieces (Json.pieces m) = (bytes, none)) :
    write p m d = (.ok (), d.put l (.file bytes)) := by
  rw [write, bind_of_ok (Disk.makeDirectories_of_isDirectory directory), lands.writePieces,
    encoded]

/-- In a directory that is there, a file of words is written, or nothing is. -/
theorem write_cases (directory : d.isDirectory (directoryOf p) = true) (m : Mapping Json) :
    (write p m d).2 = d ∨ ∃ l bytes, Lands d p l ∧ (write p m d).2 = d.put l (.file bytes) := by
  rw [write, bind_of_ok (Disk.makeDirectories_of_isDirectory directory)]
  rcases Disk.writePieces_cases p (Json.pieces m) d with ⟨e, _, failed⟩ | ⟨l, lands, done⟩
  · exact .inl (by rw [failed])
  · exact .inr ⟨l, _, lands, by rw [done]⟩

theorem deleteHandOff_cases (p : Path) (d : Disk) :
    (deleteHandOff p d).2 = d ∨ ∃ l e, e ≠ .directory ∧
      d.locate .removal p = .ok (.there l e) ∧ (deleteHandOff p d).2 = d.erase l := by
  unfold deleteHandOff
  rcases Disk.remove_cases p d with ⟨e, failed⟩ | ⟨l, e, flat, found, done⟩
  · rw [failed]
    refine .inl ?_
    split
    next same => exact (Prod.mk.inj same).2.symm
    · rfl
  · rw [done]
    exact .inr ⟨l, e, flat, found, rfl⟩

/-- When a file that was made is deleted by its path, every other file stays. -/
theorem entry_of_deleteHandOff {l k : Location} {content bytes : Bytes} (lands : Lands d p k)
    (other : l ≠ k) (was : d.entry? l = some (.file bytes)) :
    Disk.entry? (deleteHandOff p (d.put k (.file content))).2 l = some (.file bytes) := by
  have written : Disk.entry? (d.put k (.file content)) l = some (.file bytes) := by
    rw [Disk.entry?_put_of_ne d other, was]
  rcases deleteHandOff_cases p (d.put k (.file content)) with same | ⟨j, e, flat, found, same⟩
  · rw [same, written]
  · rw [same, Disk.entry?_erase _ (Disk.ne_nil_of_locate flat found), if_neg, written]
    rintro rfl
    rcases Disk.removed_of_made lands content found with here | ⟨target, rfl, _⟩
    · exact other here
    -- Where a link was removed, no file was.
    · have leads := (Disk.locate_eq_ok_iff.1 found).2
      have link := leads.entry?.resolve_left (by simp [Disk.Spot.entry?])
      rw [Disk.Spot.location, written] at link
      cases link

/-- A hand-off file that was saved in a directory that is there, as far as it could be, and
    then deleted has changed nothing but what it touches. -/
theorem deleteHandOff_beside (directory : d.isDirectory (directoryOf p) = true)
    (words : List Text) :
    Beside (Touches d p) d (deleteHandOff p (saveHandOff words p d).2).2 d := by
  rcases write_cases directory _ with saved | ⟨l, bytes, lands, saved⟩
  · rw [saveHandOff, saved]
    rcases deleteHandOff_cases p d with same | ⟨k, e, flat, found, same⟩
    · rw [same]
      exact .of_entry rfl fun _ _ => rfl
    · rw [same]
      refine .of_entry rfl fun j outside => ?_
      rw [Disk.entry?_erase d (Disk.ne_nil_of_locate flat found), if_neg]
      rintro rfl
      exact outside (.inr ⟨e, found⟩)
  · rw [saveHandOff, saved]
    have written : ∀ j, ¬ Touches d p j → Disk.entry? (d.put l (.file bytes)) j = d.entry? j := by
      intro j outside
      refine Disk.entry?_put_of_ne d ?_ _
      rintro rfl
      exact outside (.inl lands)
    rcases deleteHandOff_cases p (d.put l (.file bytes)) with same | ⟨k, e, flat, found, same⟩
    · rw [same]
      exact .of_entry rfl written
    · rw [same]
      refine .of_entry rfl fun j outside => ?_
      rw [Disk.entry?_erase _ (Disk.ne_nil_of_locate flat found), if_neg, written j outside]
      rintro rfl
      exact outside (Disk.touches_of_made lands bytes found)

end Arabize.Store
