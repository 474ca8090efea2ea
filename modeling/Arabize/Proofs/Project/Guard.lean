import Arabize.Proofs.Disk.RealNames
import Arabize.Proofs.Project.Alike

/-! # What the guard of a project lets through

The checks of a project compare real paths as texts, and look for excluded names on the way from
one real path to another.  Here they are said of the names in real paths: `isWithin_eq_ok_iff` and
`isExcluded_eq_ok_iff` hold for all disks and all paths, and say when a check cannot be made.

A file that is read (`ReadsAt`) is one that was let through and that its path leads to.  What is
read of a project hangs on no other file (`read_confined`).
-/

namespace Arabize.Path

/-- The way down from a directory to what is below it. -/
theorem way_append (start below : List Text) : way start (start ++ below) =
    if below = [] then here else Text.intercalate [slash] below := by
  have common : commonLength start (start ++ below) = start.length := by
    induction start with
    | nil => rfl
    | cons name rest ih => simp [commonLength, ih]
  simp [way, common]

/-- Before the last name of the way down stand the names of directories. -/
theorem components_way {start below : List Text} (names : ∀ name ∈ below, IsName name) :
    (components (way start (start ++ below))).dropLast = below.dropLast := by
  rw [way_append]
  split
  next none =>
    subst none
    decide
  next some =>
    rw [components, Text.splitOn_intercalate some fun name member => (names name member).2.2]

end Arabize.Path

namespace Arabize.Project

open Disk (Alike Grounded Passable)

variable {d : Disk} {root tool p : Path} {excluded : List Text}

/-! ## Real paths below one another -/

/-- The real path of a path is that of a directory or below it. -/
def Below (d : Disk) (root p : Path) : Prop := d.realNames root <+: d.realNames p

/-- What the check takes to be within a directory: nothing but itself is in the root. -/
def Encloses (d : Disk) (root p : Path) : Prop :=
  d.realNames p = d.realNames root ∨ d.realNames root ≠ [] ∧ Below d root p

theorem Encloses.below (encloses : Encloses d root p) : Below d root p := by
  rcases encloses with same | ⟨_, below⟩
  · simp [Below, same]
  · exact below

theorem encloses_iff_below (named : d.realNames root ≠ []) :
    Encloses d root p ↔ Below d root p :=
  ⟨Encloses.below, fun below => .inr ⟨named, below⟩⟩

/-- The names of the directories between a directory and a path below it. -/
def between (d : Disk) (root p : Path) : List Text :=
  ((d.realNames p).drop (d.realNames root).length).dropLast

theorem isSetAside_iff (below : Below d root p) : isSetAside d root excluded p = true ↔
    (∃ name ∈ between d root p, name ∈ excluded) ∨ Path.isRendition p = true := by
  obtain ⟨more, whole⟩ := below
  have names : ∀ name ∈ more, Path.IsName name := fun name member =>
    Disk.isName_of_mem_realNames d p name (whole ▸ List.mem_append_right _ member)
  unfold isSetAside between
  simp only [← whole, Path.components_way names]
  simp

/-! ## The checks -/

theorem realPathOf_of_passable (passable : Passable p) (d : Disk) :
    d.realPathOf p = .ok (Path.ofLocation (d.realNames p)) := by
  rw [Disk.realPathOf, (Disk.passPath_eq_ok_iff p).2 passable]
  rfl

theorem realPathOf_of_not_passable (fault : ¬ Passable p) (d : Disk) :
    ∃ e, d.realPathOf p = .error e := by
  unfold Disk.realPathOf
  cases passed : Disk.passPath p with
  | error e => exact ⟨e, rfl⟩
  | ok => exact absurd ((Disk.passPath_eq_ok_iff p).1 passed) fault

theorem isWithin_eq_ok_iff {answer : Bool} : isWithin d root p = .ok answer ↔
    (Passable p ∧ Passable root) ∧ (answer = true ↔ Encloses d root p) := by
  have extends? : extendsReal (Path.ofLocation (d.realNames root))
      (Path.ofLocation (d.realNames p)) = true ↔ Encloses d root p :=
    extendsReal_iff (Disk.isName_of_mem_realNames d root) (Disk.isName_of_mem_realNames d p)
  by_cases first : Passable p
  · by_cases second : Passable root
    · have given : isWithin d root p = .ok (extendsReal (Path.ofLocation (d.realNames root))
          (Path.ofLocation (d.realNames p))) := by
        rw [isWithin, realPathOf_of_passable first, realPathOf_of_passable second]
        rfl
      rw [given, ← extends?, ← Bool.eq_iff_iff]
      simp [first, second, eq_comm]
    · obtain ⟨e, failed⟩ := realPathOf_of_not_passable second d
      have given : isWithin d root p = .error e := by
        rw [isWithin, realPathOf_of_passable first, failed]
        rfl
      simp [given, second]
  · obtain ⟨e, failed⟩ := realPathOf_of_not_passable first d
    have given : isWithin d root p = .error e := by
      rw [isWithin, failed]
      rfl
    simp [given, first]

/-- The check can be made of paths that can be passed to the system. -/
theorem isWithin_of_passable (passable : Passable p) (also : Passable root) (d : Disk) :
    ∃ answer, isWithin d root p = .ok answer := by
  by_cases encloses : Encloses d root p
  · exact ⟨true, isWithin_eq_ok_iff.2 ⟨⟨passable, also⟩, iff_of_true rfl encloses⟩⟩
  · exact ⟨false, isWithin_eq_ok_iff.2 ⟨⟨passable, also⟩, iff_of_false (by simp) encloses⟩⟩

/-- Outside the program's own directory only the project and its excluded directories count. -/
theorem isExcluded_of_foreign (foreign : tool = [] ∨ isWithin d tool p = .ok false) :
    isExcluded d root tool excluded p =
      (isWithin d root p).map fun inside => !inside || isSetAside d root excluded p := by
  unfold isExcluded
  cases inside : isWithin d root p with
  | error e => rfl
  | ok answer =>
    cases answer with
    | false => rfl
    | true =>
      rcases foreign with rfl | apart
      · -- The empty path can always be passed on.
        obtain ⟨own, given⟩ := isWithin_of_passable (isWithin_eq_ok_iff.1 inside).1.1
          (by decide : Passable []) d
        simp only [bind, Except.bind, given]
        rfl
      · simp only [bind, Except.bind, apart, Bool.and_false]
        rfl

/-- A file is let through if it lies in the project and outside the program's own directory, in no
    excluded directory, and has not the name of a rendition. -/
theorem isExcluded_eq_false_iff : isExcluded d root tool excluded p = .ok false ↔
    isWithin d root p = .ok true ∧ (tool = [] ∨ isWithin d tool p = .ok false) ∧
      isSetAside d root excluded p = false := by
  by_cases foreign : tool = [] ∨ isWithin d tool p = .ok false
  · rw [isExcluded_of_foreign foreign]
    cases isWithin d root p with
    | error e => simp [Except.map]
    | ok answer => cases answer <;> simp [Except.map, foreign]
  · refine iff_of_false (fun given => ?_) fun all => foreign all.2.1
    obtain ⟨own, within⟩ := not_or.1 foreign
    unfold isExcluded at given
    cases inside : isWithin d root p with
    | error e => simp [inside, bind, Except.bind] at given
    | ok answer =>
      cases answer with
      | false => simp [inside, bind, Except.bind, pure, Except.pure] at given
      | true =>
        cases there : isWithin d tool p with
        | error e => simp [inside, there, bind, Except.bind] at given
        | ok answer =>
          cases answer with
          | false => exact within there
          | true => simp [inside, there, own, bind, Except.bind, pure, Except.pure] at given

theorem refusal?_eq_none_iff : refusal? d root tool p = .ok none ↔
    FileKind.ofPath p ≠ .unknown ∧ isExcluded d root tool excludedNames p = .ok false := by
  unfold refusal?
  by_cases unknown : FileKind.ofPath p = .unknown
  · simp [unknown]
  · cases isExcluded d root tool excludedNames p with
    | error e => simp [unknown]
    | ok answer => cases answer <;> simp [unknown]

/-! ## What is let through -/

/-- What a project asks of a file that is read. -/
structure Cleared (d : Disk) (root tool p : Path) : Prop where
  inside : Below d root p
  foreign : ¬ Below d tool p
  included : ∀ name ∈ between d root p, name ∉ excludedNames

theorem cleared_of_refusal? (own : tool ≠ []) (notRoot : d.realNames tool ≠ [])
    (passed : refusal? d root tool p = .ok none) : Cleared d root tool p := by
  obtain ⟨_, included⟩ := refusal?_eq_none_iff.1 passed
  obtain ⟨inside, foreign, listed⟩ := isExcluded_eq_false_iff.1 included
  have below : Below d root p := ((isWithin_eq_ok_iff.1 inside).2.1 rfl).below
  have apart := (isWithin_eq_ok_iff.1 (foreign.resolve_left own)).2
  rw [encloses_iff_below notRoot] at apart
  refine ⟨below, fun within => by simpa using apart.2 within, fun name member excluded => ?_⟩
  have setAside := (isSetAside_iff below).2 (.inl ⟨name, member, excluded⟩)
  rw [listed] at setAside
  cases setAside

/-- A file of a project is read: it was let through, and its path leads to it. -/
def ReadsAt (d : Disk) (root tool p : Path) (l : Location) : Prop :=
  refusal? d root tool p = .ok none ∧
    ∃ bytes, d.locate .target p = .ok (.there l (.file bytes))

theorem ReadsAt.location (grounded : Grounded d) {l : Location}
    (reads : ReadsAt d root tool p l) : l = d.realNames p := by
  obtain ⟨_, bytes, found⟩ := reads
  exact (Disk.realNames_of_locate grounded found).symm

theorem ReadsAt.unique {l k : Location} (reads : ReadsAt d root tool p l)
    (also : ReadsAt d root tool p k) : l = k := by
  obtain ⟨_, bytes, found⟩ := reads
  obtain ⟨_, others, again⟩ := also
  rw [found] at again
  cases again
  rfl

theorem readsAt_of_read {content : Text} (found : read d root tool p = .ok content) :
    ∃ l, ReadsAt d root tool p l := by
  obtain ⟨l, bytes, there⟩ := file_of_read found
  refine ⟨l, ?_, bytes, there⟩
  unfold read at found
  split at found
  · cases found
  · cases found
  next passed => exact passed

/-- What is read is the same on every disk with the same links and the same bytes where the file
    is read. -/
theorem read_confined {c : Disk} (alike : Alike d c)
    (same : ∀ l, ReadsAt d root tool p l → c.entry? l = d.entry? l) {content : Text}
    (found : read d root tool p = .ok content) : read c root tool p = .ok content := by
  obtain ⟨l, reads⟩ := readsAt_of_read found
  obtain ⟨_, bytes, there⟩ := id reads
  have now : c.entry? l = some (.file bytes) :=
    (same l reads).trans (Disk.entry_of_locate_file there)
  have still := Disk.locate_file_of_keeps alike.keeps there now
  rw [read_links alike.cwd alike.link? there still, found]

/-! ## What is written -/

/-- A file that is opened for writing lies in the project. -/
theorem Opens.below {made : Disk} {l : Location} (project : root ≠ [])
    (opens : Opens root p d made l) : Below d root p := by
  have inside := opens.1
  unfold checkTarget at inside
  rw [if_neg project] at inside
  split at inside
  next within => exact ((isWithin_eq_ok_iff.1 within).2.1 rfl).below
  · cases inside
  · cases inside

theorem Opens.location {made : Disk} {l : Location} (grounded : Grounded d)
    (opens : Opens root p d made l) : l = d.realNames p := by
  have adds := opens.adds
  have there : Grounded made := by rwa [Grounded, adds.cwd]
  rw [← realNames_links adds.cwd adds.link?, opens.2.2.realNames there]

/-- Nothing is written where the check of the target fails. -/
theorem write_of_refused (refused : (checkTarget root p d).1 ≠ .ok ()) (content : Text) :
    ∃ e, write root p content d = (.error e, d) := by
  rcases checked : checkTarget root p d with ⟨e | _, same⟩
  · obtain rfl : same = d := by rw [← checkTarget_disk root p d, checked]
    exact ⟨e, bind_of_error checked⟩
  · exact absurd (by rw [checked]) refused

end Arabize.Project
