import Arabize.Proofs.Disk.Beside
import Arabize.Proofs.Project.Write

/-! # A project on one disk beside another

What a project lets be read and written depends on the real paths of the project, of the
program and of the file alone.  So on two disks beside each other a project file is read
alike, and written alike, if all of these lead over nothing that the disks differ in.
-/

namespace Arabize.Project

open Disk (Avoids Beside)

variable {away : Location → Prop} {d x y : Disk} {root tool p : Path}

section

variable (beside : Beside away d x y) (rootAvoids : Avoids away d root)
  (avoids : Avoids away d p)

include beside rootAvoids avoids

theorem isWithin_beside : isWithin x root p = isWithin y root p := by
  unfold isWithin
  rw [beside.realPathOf rootAvoids, beside.realPathOf avoids]

theorem isSetAside_beside (excluded : List Text) :
    isSetAside x root excluded p = isSetAside y root excluded p := by
  unfold isSetAside
  rw [beside.realNames rootAvoids, beside.realNames avoids]

theorem isExcluded_beside (toolAvoids : Avoids away d tool) (excluded : List Text) :
    isExcluded x root tool excluded p = isExcluded y root tool excluded p := by
  unfold isExcluded
  rw [isWithin_beside beside rootAvoids avoids, isWithin_beside beside toolAvoids avoids,
    isSetAside_beside beside rootAvoids avoids]

theorem read_beside (toolAvoids : Avoids away d tool) : read x root tool p = read y root tool p := by
  unfold read refusal?
  rw [isExcluded_beside beside rootAvoids avoids toolAvoids, beside.readText avoids]

end

theorem onDisk_lockstep {α : Type} {change : Disk.Change α}
    (alike : Lockstep (Beside away d) change.run change.run) :
    Lockstep (Beside away d) (onDisk change).run (onDisk change).run := by
  intro x y beside
  obtain ⟨answer, after, other, here, there, still⟩ := alike.runs beside
  simp only [ExceptT.run] at here there
  simp only [ExceptT.run, onDisk, here, there]
  cases answer <;> exact ⟨rfl, still⟩

theorem checkTarget_lockstep (rootAvoids : Avoids away d root) (avoids : Avoids away d p) :
    Lockstep (Beside away d) (checkTarget root p).run (checkTarget root p).run := by
  intro x y beside
  simp only [ExceptT.run, checkTarget, isWithin_beside beside rootAvoids avoids]
  split
  · exact ⟨rfl, beside⟩
  · split <;> exact ⟨rfl, beside⟩

theorem write_lockstep (rootAvoids : Avoids away d root) (avoids : Avoids away d p)
    (directoryAvoids : Avoids away d (Path.directory (Path.absolute d.cwd p))) (content : Text) :
    Lockstep (Beside away d) (write root p content).run (write root p content).run := by
  have directories := onDisk_lockstep (Disk.makeDirectories_lockstep _ directoryAvoids)
  have written := onDisk_lockstep (Disk.writePieces_lockstep avoids [content])
  have placed : Lockstep (Beside away d) (place d.cwd p content).run (place d.cwd p content).run :=
    directories.bindExcept fun _ => written
  rw [write_eq]
  refine (checkTarget_lockstep rootAvoids avoids).bindExcept fun _ x y beside => ?_
  -- Both disks have the working directory that the path counts from.
  change (place x.cwd p content x).1 = (place y.cwd p content y).1 ∧
    Beside away d (place x.cwd p content x).2 (place y.cwd p content y).2
  rw [beside.cwdOne, beside.cwdOther]
  exact placed x y beside

end Arabize.Project
