import Arabize.Proofs.Disk.Directories
import Arabize.Proofs.Disk.RealPath

/-! # Disks that differ in files only

While files are written and no directory is made, a disk keeps its directories and its links
(`Alike`).  A path then leads to the same location all the time; only what file is there, if
any, may have changed.
-/

namespace Arabize.Disk

variable {d c b : Disk} {p : Path} {l : Location}

/-- Two disks that differ at most where the one has a file, and the other a file or nothing. -/
structure Alike (d c : Disk) : Prop where
  cwd : c.cwd = d.cwd
  entry : ∀ l, c.entry? l = d.entry? l ∨ Writable (d.entry? l) ∧ Writable (c.entry? l)

namespace Alike

theorem refl (d : Disk) : Alike d d := ⟨rfl, fun _ => .inl rfl⟩

theorem symm (alike : Alike d c) : Alike c d :=
  ⟨alike.cwd.symm, fun l => (alike.entry l).imp Eq.symm And.symm⟩

theorem writable (alike : Alike d c) (writable : Writable (d.entry? l)) : Writable (c.entry? l) := by
  rcases alike.entry l with same | ⟨_, now⟩
  · rwa [same]
  · exact now

theorem trans (first : Alike d c) (second : Alike c b) : Alike d b := by
  refine ⟨second.cwd.trans first.cwd, fun l => ?_⟩
  rcases first.entry l with same | ⟨was, now⟩
  · rw [← same]
    exact second.entry l
  · exact .inr ⟨was, second.writable now⟩

theorem keeps (alike : Alike d c) : Keeps d c := by
  refine ⟨alike.cwd, fun {l} there => ?_, fun {l target} there => ?_⟩
  · rcases alike.entry l with same | ⟨was, _⟩
    · rw [same, there]
    · exact absurd there (writable_ne_directory was)
  · rcases alike.entry l with same | ⟨was, _⟩
    · rw [same, there]
    · exact absurd there (writable_ne_link was target)

theorem put (d : Disk) (writable : Writable (d.entry? l)) (bytes : Bytes) :
    Alike d (d.put l (.file bytes)) := by
  refine ⟨rfl, fun k => ?_⟩
  rw [entry?_put d (ne_nil_of_writable writable)]
  split
  next here => exact .inr ⟨here ▸ writable, trivial⟩
  · exact .inl rfl

/-! ## Where paths lead -/

theorem lands_iff (alike : Alike d c) : Lands c p l ↔ Lands d p l :=
  ⟨fun lands => lands.of_keeps alike.symm.keeps (alike.symm.writable lands.writable),
    fun lands => lands.of_keeps alike.keeps (alike.writable lands.writable)⟩

theorem link? (alike : Alike d c) (l : Location) : c.link? l = d.link? l := by
  rcases alike.entry l with same | ⟨was, now⟩
  · exact link?_congr same
  · rw [link?_eq_none_of_entry rfl (writable_ne_link was),
      link?_eq_none_of_entry rfl (writable_ne_link now)]

end Alike

/-- Nor does a directory that is made add a link. -/
theorem Adds.link? (adds : Adds d c) (l : Location) : c.link? l = d.link? l := by
  rcases adds.entry l with same | ⟨was, now⟩
  · exact link?_congr same
  · rw [link?_eq_none_of_entry was nofun, link?_eq_none_of_entry now nofun]

/-- A file that a path leads to is still found there, whatever it holds now. -/
theorem locate_file_of_keeps (kept : Keeps d c) {bytes more : Bytes}
    (found : d.locate .target p = .ok (.there l (.file bytes)))
    (now : c.entry? l = some (.file more)) : c.locate .target p = .ok (.there l (.file more)) := by
  obtain ⟨walkable, leads⟩ := locate_eq_ok_iff.1 found
  refine locate_eq_ok_iff.2 ⟨walkable, ?_⟩
  rw [origin_congr kept.cwd]
  exact leads.rewritten kept now

theorem entry_of_locate_file {bytes : Bytes}
    (found : d.locate .target p = .ok (.there l (.file bytes))) : d.entry? l = some (.file bytes) :=
  (locate_eq_ok_iff.1 found).2.entry_file

/-- A directory is still found where it was. -/
theorem isDirectory_of_keeps (kept : Keeps d c) (directory : d.isDirectory p = true) :
    c.isDirectory p = true := by
  obtain ⟨sized, l, leads⟩ := isDirectory_iff.1 directory
  refine isDirectory_iff.2 ⟨sized, l, ?_⟩
  rw [origin_congr kept.cwd]
  exact leads.directory_of_keeps kept

end Arabize.Disk
