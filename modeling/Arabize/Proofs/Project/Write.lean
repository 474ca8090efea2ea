import Arabize.Project.Guard
import Arabize.Proofs.Disk.Change

/-! # Writing into a project

A file of a project is opened (`Opens`) if its path is in the project, its directories can be
made and it can be written there.  From then on it holds the new content, or nothing if that
has no encoding; up to then only directories were made.
-/

namespace Arabize.Project

open Disk (Adds Lands)

variable {root p : Path} {d made : Disk} {l : Location}

/-- A file is opened for writing at a location of the disk that is left once its directories
    are made. -/
def Opens (root p : Path) (d made : Disk) (l : Location) : Prop :=
  (checkTarget root p d).1 = .ok () ∧
    Disk.makeDirectories (Path.directory (Path.absolute d.cwd p)) d = (.ok (), made) ∧
    Lands made p l

theorem Opens.adds (opens : Opens root p d made l) : Adds d made := by
  have adds := Disk.makeDirectories_adds (Path.directory (Path.absolute d.cwd p)) d
  rwa [opens.2.1] at adds

theorem Opens.unique {other : Disk} {k : Location} (opens : Opens root p d made l)
    (also : Opens root p d other k) : made = other ∧ l = k := by
  obtain ⟨_, makes, lands⟩ := opens
  obtain ⟨_, again, elsewhere⟩ := also
  rw [makes] at again
  cases again
  exact ⟨rfl, lands.unique elsewhere⟩

theorem checkTarget_disk (root p : Path) (d : Disk) : (checkTarget root p d).2 = d := by
  unfold checkTarget
  split
  · rfl
  · split <;> rfl

/-- The writing of a file whose path was checked, relative paths counting from a directory. -/
def place (cwd p : Path) (content : Text) : Change Unit := do
  onDisk (Disk.makeDirectories (Path.directory (Path.absolute cwd p)))
  onDisk (Disk.writeText p content)

theorem write_eq (root p : Path) (content : Text) :
    write root p content = (do checkTarget root p; fun d => place d.cwd p content d) := rfl

/-- What is written at a path: its content, or as much of it as has an encoding. -/
theorem write_of_opens (opens : Opens root p d made l) (content : Text) :
    write root p content d =
      match Utf8.encode content with
      | .ok bytes => (.ok (), made.put l (.file bytes))
      | .error e => (.error (.access (.unencodable e)), made.put l (.file [])) := by
  obtain ⟨inside, makes, lands⟩ := opens
  have passed : checkTarget root p d = (.ok (), d) := Prod.ext inside (checkTarget_disk root p d)
  have directories : onDisk (Disk.makeDirectories (Path.directory (Path.absolute d.cwd p))) d =
      (.ok (), made) := by
    simp only [onDisk, makes]
  have written : onDisk (Disk.writeText p content) made =
      match Utf8.encode content with
      | .ok bytes => (.ok (), made.put l (.file bytes))
      | .error e => (.error (.access (.unencodable e)), made.put l (.file [])) := by
    rcases Disk.writePieces_cases p [content] made with ⟨e, failed, _⟩ | ⟨k, also, done⟩
    · rw [lands.createFile] at failed
      cases failed
    · cases lands.unique also
      simp only [onDisk, Disk.writeText, done, Disk.encodePieces]
      cases Utf8.encode content <;> simp
  rw [write_eq, bind_of_ok passed, place, bind_of_ok directories, written]

/-- A file whose directories cannot be made is not written. -/
theorem write_of_stuck {e : AccessError} {left : Disk} (inside : (checkTarget root p d).1 = .ok ())
    (stuck : Disk.makeDirectories (Path.directory (Path.absolute d.cwd p)) d = (.error e, left))
    (content : Text) : write root p content d = (.error (.access e), left) := by
  have passed : checkTarget root p d = (.ok (), d) := Prod.ext inside (checkTarget_disk root p d)
  have failed : onDisk (Disk.makeDirectories (Path.directory (Path.absolute d.cwd p))) d =
      (.error (.access e), left) := by
    simp only [onDisk, stuck]
  rw [write_eq, bind_of_ok passed, place, bind_of_error failed]

/-- A file that is not opened is not written: no more than directories was made. -/
theorem write_of_not_opens (closed : ∀ made l, ¬ Opens root p d made l) (content : Text) :
    ∃ e left, write root p content d = (.error e, left) ∧ Adds d left := by
  rcases passed : checkTarget root p d with ⟨e | _, same⟩
  · obtain rfl : same = d := by rw [← checkTarget_disk root p d, passed]
    exact ⟨e, same, bind_of_error passed, .refl same⟩
  · obtain rfl : same = d := by rw [← checkTarget_disk root p d, passed]
    have adds := Disk.makeDirectories_adds (Path.directory (Path.absolute same.cwd p)) same
    rw [write_eq, bind_of_ok passed, place]
    rcases makes : Disk.makeDirectories (Path.directory (Path.absolute same.cwd p)) same with
      ⟨e | _, made⟩
    · rw [makes] at adds
      refine ⟨.access e, made, ?_, adds⟩
      rw [← write_of_stuck (by rw [passed]) makes content, write_eq, bind_of_ok passed, place]
    · rw [makes] at adds
      have directories : onDisk (Disk.makeDirectories
          (Path.directory (Path.absolute same.cwd p))) same = (.ok (), made) := by
        simp only [onDisk, makes]
      rcases Disk.writePieces_cases p [content] made with ⟨e, _, failed⟩ | ⟨l, lands, _⟩
      · refine ⟨.access e, made, ?_, adds⟩
        rw [bind_of_ok directories]
        simp only [onDisk, Disk.writeText, failed]
      · refine absurd ⟨?_, makes, lands⟩ (closed made l)
        rw [passed]

end Arabize.Project
