import Arabize.Proofs.Disk.Alike
import Arabize.Proofs.Project.Write

/-! # A project while files are written

Whether a path belongs to a project hangs on directories and links alone.  So on disks that
differ in files only, a source that is the same is read alike, and a rendition whose directory
is there is written at the same location.
-/

namespace Arabize.Project

open Disk (Alike Lands)

variable {x y : Disk} {root tool p : Path}

section Links

variable (cwd : y.cwd = x.cwd) (links : ∀ l, y.link? l = x.link? l)

include cwd links

theorem realNames_links (p : Path) : y.realNames p = x.realNames p :=
  Disk.realNames_congr cwd.symm fun l _ => links l

theorem isWithin_links (root p : Path) : isWithin y root p = isWithin x root p := by
  unfold isWithin Disk.realPathOf Disk.realPath
  simp only [realNames_links cwd links]

theorem isExcluded_links (root tool : Path) (excluded : List Text) (p : Path) :
    isExcluded y root tool excluded p = isExcluded x root tool excluded p := by
  unfold isExcluded isSetAside
  simp only [isWithin_links cwd links, realNames_links cwd links]

end Links

/-! ## Reading -/

/-- What is read is the text of a file. -/
theorem readText_of_read {content : Text} (found : read x root tool p = .ok content) :
    x.readText p = .ok content := by
  unfold read at found
  split at found
  · cases found
  · cases found
  · cases text : x.readText p with
    | error e =>
      rw [text] at found
      cases found
    | ok t =>
      rw [text] at found
      cases found
      rfl

theorem file_of_read {content : Text} (found : read x root tool p = .ok content) :
    ∃ l bytes, x.locate .target p = .ok (.there l (.file bytes)) := by
  have text := readText_of_read found
  unfold Disk.readText at text
  split at text
  · cases text
  next bytes read =>
    obtain ⟨l, there⟩ := Disk.readBytes_eq_ok_iff.1 read
    exact ⟨l, bytes, there⟩

/-- A file that belongs to a project is read as its text. -/
theorem read_of_readText {content : Text} (known : FileKind.ofPath p ≠ .unknown)
    (included : isExcluded x root tool excludedNames p = .ok false)
    (text : x.readText p = .ok content) : read x root tool p = .ok content := by
  rw [read, refusal?, if_neg known, included, text]
  rfl

/-- The same file is read as the same source, as long as no link has changed. -/
theorem read_links (cwd : y.cwd = x.cwd) (links : ∀ l, y.link? l = x.link? l) {l : Location}
    {bytes : Bytes} (here : x.locate .target p = .ok (.there l (.file bytes)))
    (there : y.locate .target p = .ok (.there l (.file bytes))) :
    read y root tool p = read x root tool p := by
  have text : y.readText p = x.readText p := by
    unfold Disk.readText
    rw [Disk.readBytes_eq_ok_iff.2 ⟨l, here⟩, Disk.readBytes_eq_ok_iff.2 ⟨l, there⟩]
  unfold read refusal?
  rw [isExcluded_links cwd links, text]

/-! ## Writing -/

/-- A file in a directory that is there is opened as it is. -/
theorem opens_of_isDirectory (inside : isWithin x root p = .ok true)
    (directory : x.isDirectory (Path.directory (Path.absolute x.cwd p)) = true)
    {l : Location} (lands : Lands x p l) : Opens root p x x l := by
  refine ⟨?_, Disk.makeDirectories_of_isDirectory directory, lands⟩
  rw [checkTarget, inside]
  split <;> rfl

/-- A rendition whose directory is there is written without one being made. -/
theorem write_of_isDirectory
    (directory : x.isDirectory (Path.directory (Path.absolute x.cwd p)) = true) (content : Text) :
    write root p content x = (do checkTarget root p; onDisk (Disk.writeText p content)) x := by
  rcases passed : checkTarget root p x with ⟨e | _, same⟩
  · rw [write_eq, bind_of_error passed, bind_of_error passed]
  · obtain rfl : same = x := by rw [← checkTarget_disk root p x, passed]
    have made : onDisk (Disk.makeDirectories (Path.directory (Path.absolute same.cwd p))) same =
        (.ok (), same) := by
      simp only [onDisk, Disk.makeDirectories_of_isDirectory directory]
    rw [write_eq, bind_of_ok passed, bind_of_ok passed, place, bind_of_ok made]

theorem checkTarget_alike (alike : Alike x y) (root p : Path) :
    ∃ result, checkTarget root p x = (result, x) ∧ checkTarget root p y = (result, y) := by
  refine ⟨(checkTarget root p x).1, Prod.ext rfl (checkTarget_disk root p x),
    Prod.ext ?_ (checkTarget_disk root p y)⟩
  unfold checkTarget
  rw [isWithin_links alike.cwd alike.link?]
  split
  · rfl
  · split <;> rfl

theorem writeText_alike (alike : Alike x y) (p : Path) (content : Text) :
    (∃ e f, onDisk (Disk.writeText p content) x = (.error e, x) ∧
        onDisk (Disk.writeText p content) y = (.error f, y)) ∨
      ∃ result l bytes, Lands x p l ∧
        onDisk (Disk.writeText p content) x = (result, x.put l (.file bytes)) ∧
        onDisk (Disk.writeText p content) y = (result, y.put l (.file bytes)) := by
  unfold onDisk Disk.writeText
  rcases Disk.writePieces_cases p [content] x with ⟨e, closed, failed⟩ | ⟨l, lands, done⟩
  · rcases Disk.writePieces_cases p [content] y with ⟨f, _, missed⟩ | ⟨l, lands, _⟩
    · refine .inl ⟨.access e, .access f, ?_, ?_⟩
      · rw [failed]
      · rw [missed]
    · rw [(alike.lands_iff.1 lands).createFile] at closed
      cases closed
  · rcases Disk.writePieces_cases p [content] y with ⟨f, closed, _⟩ | ⟨k, also, written⟩
    · rw [(alike.lands_iff.2 lands).createFile] at closed
      cases closed
    · cases lands.unique (alike.lands_iff.1 also)
      rw [done, written]
      cases (Disk.encodePieces [content]).2 with
      | none => exact .inr ⟨.ok (), l, _, lands, rfl, rfl⟩
      | some e => exact .inr ⟨.error (.access (.unencodable e)), l, _, lands, rfl, rfl⟩

/-- On two such disks a rendition is written on neither, or on both at the same location. -/
theorem write_alike (root : Path) (alike : Alike x y)
    (directory : x.isDirectory (Path.directory (Path.absolute x.cwd p)) = true) (content : Text) :
    (∃ e f, write root p content x = (.error e, x) ∧ write root p content y = (.error f, y)) ∨
      ∃ result l bytes, Lands x p l ∧ write root p content x = (result, x.put l (.file bytes)) ∧
        write root p content y = (result, y.put l (.file bytes)) := by
  have also : y.isDirectory (Path.directory (Path.absolute y.cwd p)) = true := by
    rw [alike.cwd]
    exact Disk.isDirectory_of_keeps alike.keeps directory
  rw [write_of_isDirectory directory, write_of_isDirectory also]
  obtain ⟨result, here, there⟩ := checkTarget_alike alike root p
  cases result with
  | error e => exact .inl ⟨e, e, bind_of_error here, bind_of_error there⟩
  | ok =>
    rw [bind_of_ok here, bind_of_ok there]
    exact writeText_alike alike p content

end Arabize.Project
