import Arabize.Proofs.Project.Kind
import Arabize.Proofs.Project.Walk

/-! # Renditions are a space of their own

A path with an extension falls into four parts in one way only: what ends with its last slash, the
dots that its name starts with, a stem, and behind the last dot the extension (`Extended`).  Its
rendition has a longer stem and the same other parts.  So the rendition stands beside the file, is
of the same kind, and tells which file it is one of; and as it has the name of a rendition it is
never read, whatever the project, nor found by a scan.
-/

namespace Arabize

namespace Path

def dot : CodePoint := CodePoint.ofChar '.'

variable {front dots stem more name : Text} {p q : Path}

/-! ## The parts of a path -/

/-- What ends with the last slash of a path. -/
def IsFront (front : Text) : Prop := front = [] ∨ front.getLast? = some slash

theorem takeWhile_front (isFront : IsFront front) :
    front.reverse.takeWhile (· != slash) = [] ∧
      front.reverse.dropWhile (· != slash) = front.reverse := by
  rcases isFront with rfl | ends
  · exact ⟨rfl, rfl⟩
  · obtain ⟨init, rfl⟩ := List.getLast?_eq_some_iff.1 ends
    simp

theorem not_slash_of_mem (slashless : slash ∉ name) : ∀ c ∈ name.reverse, (c != slash) = true := by
  intro c member
  rw [bne_iff_ne]
  rintro rfl
  exact slashless (List.mem_reverse.1 member)

theorem baseName_append (isFront : IsFront front) (slashless : slash ∉ name) :
    baseName (front ++ name) = name := by
  rw [baseName, List.reverse_append, List.takeWhile_append_of_pos (not_slash_of_mem slashless),
    (takeWhile_front isFront).1, List.append_nil, List.reverse_reverse]

/-- The directory of a path does not hang on its name. -/
theorem directory_append (isFront : IsFront front) (slashless : slash ∉ name) :
    directory (front ++ name) = directory front := by
  have head : (front ++ name).reverse.dropWhile (· != slash) = front.reverse := by
    rw [List.reverse_append, List.dropWhile_append_of_pos (not_slash_of_mem slashless),
      (takeWhile_front isFront).2]
  rw [directory, directory, head, (takeWhile_front isFront).2]

theorem front_cases (p : Path) : ∃ front, IsFront front ∧ p = front ++ baseName p := by
  refine ⟨(p.reverse.dropWhile (· != slash)).reverse, ?_, ?_⟩
  · have first := List.head?_dropWhile_not (· != slash) p.reverse
    rw [IsFront, List.getLast?_reverse]
    cases behind : (p.reverse.dropWhile (· != slash)).head? with
    | none => exact .inl (by rw [List.head?_eq_none_iff.1 behind, List.reverse_nil])
    | some c =>
      rw [behind] at first
      exact .inr (by simpa using first)
  · rw [baseName, ← List.reverse_append, List.takeWhile_append_dropWhile, List.reverse_reverse]

theorem baseName_join {dir : Path} (named : IsName name) : baseName (join dir name) = name := by
  have relative : isAbsolute name = false := by
    rw [isAbsolute, beq_eq_false_iff_ne]
    exact fun front => named.2.2 (List.mem_of_mem_head? front)
  rw [join, relative, if_neg Bool.false_ne_true]
  split
  next isFront => exact baseName_append isFront named.2.2
  · rw [List.append_cons]
    exact baseName_append (.inr List.getLast?_concat) named.2.2

theorem components_baseName (p : Path) : ∃ init, components p = init ++ [baseName p] := by
  have free : slash ∉ baseName p := fun member => ne_slash_of_mem_baseName member rfl
  obtain ⟨front, rfl | ends, whole⟩ := front_cases p
  · refine ⟨[], ?_⟩
    rw [List.nil_append] at whole ⊢
    conv_lhs => rw [whole]
    exact Text.splitOn_of_not_mem free
  · obtain ⟨init, rfl⟩ := List.getLast?_eq_some_iff.1 ends
    refine ⟨components init, ?_⟩
    conv_lhs => rw [whole, List.append_assoc, List.singleton_append, components,
      Text.splitOn_append, Text.splitOn_of_not_mem free]
    rfl

/-! ## Extensions -/

/-- The name of a path without the dots that it starts with. -/
def undotted (p : Path) : Text :=
  (baseName p).drop ((baseName p).takeWhile (· == dot)).length

theorem splitExtension_eq (p : Path) : splitExtension p =
    match Text.findLast? [dot] (undotted p) with
    | some i => (p.take (p.length - (undotted p).length + i),
        p.drop (p.length - (undotted p).length + i))
    | none => (p, []) :=
  rfl

theorem undotted_append (isFront : IsFront front) (leading : ∀ c ∈ dots, c = dot)
    (starts : name.head? ≠ some dot) (slashless : slash ∉ dots ++ name) :
    undotted (front ++ (dots ++ name)) = name := by
  have begins : (dots ++ name).takeWhile (· == dot) = dots := by
    rw [List.takeWhile_append_of_pos fun c member => beq_iff_eq.2 (leading c member)]
    cases name with
    | nil => exact List.append_nil dots
    | cons c name =>
      rw [List.takeWhile_cons_of_neg (by simpa using starts), List.append_nil]
  rw [undotted, baseName_append isFront slashless, begins, List.drop_left]

/-- Dots at the start of a name are passed over, and what follows is cut before its last dot. -/
theorem splitExtension_append (isFront : IsFront front) (leading : ∀ c ∈ dots, c = dot)
    (starts : name.head? ≠ some dot) (slashless : slash ∉ dots ++ name) :
    splitExtension (front ++ (dots ++ name)) =
      match Text.findLast? [dot] name with
      | some i => (front ++ (dots ++ name.take i), name.drop i)
      | none => (front ++ (dots ++ name), []) := by
  have place : ∀ i, (front ++ (dots ++ name)).length - name.length + i =
      (front ++ dots).length + i := by
    intro i
    simp only [List.length_append]
    omega
  rw [splitExtension_eq, undotted_append isFront leading starts slashless]
  cases Text.findLast? [dot] name with
  | none => rfl
  | some i =>
    dsimp only
    rw [place, ← List.append_assoc, List.take_length_add_append, List.drop_length_add_append,
      List.append_assoc]

/-- The parts of a path with an extension: what ends with its last slash, the dots that its name
    starts with, the stem, and what stands behind the dot of the extension. -/
structure Extended (front dots stem more : Text) : Prop where
  isFront : IsFront front
  leading : ∀ c ∈ dots, c = dot
  starts : stem ≠ [] ∧ stem.head? ≠ some dot
  slashless : slash ∉ dots ++ (stem ++ dot :: more)
  last : dot ∉ more

theorem Extended.cut (parts : Extended front dots stem more) :
    splitExtension (front ++ (dots ++ (stem ++ dot :: more))) =
      (front ++ (dots ++ stem), dot :: more) := by
  have starts : (stem ++ dot :: more).head? ≠ some dot := by
    rw [List.head?_append_of_ne_nil _ parts.starts.1]
    exact parts.starts.2
  rw [splitExtension_append parts.isFront parts.leading starts parts.slashless,
    Text.findLast?_append parts.last]
  dsimp only
  rw [List.take_left, List.drop_left]

/-- A path with an extension falls into its parts. -/
theorem extended_of_extension (extended : extension p ≠ []) :
    ∃ front dots stem more, p = front ++ (dots ++ (stem ++ dot :: more)) ∧
      Extended front dots stem more := by
  obtain ⟨front, isFront, whole⟩ := front_cases p
  have slashless : slash ∉ baseName p := fun member => ne_slash_of_mem_baseName member rfl
  have leading := List.all_eq_true.1 (List.all_takeWhile (l := baseName p) (p := (· == dot)))
  have starts := List.head?_dropWhile_not (· == dot) (baseName p)
  have named := List.takeWhile_append_dropWhile (l := baseName p) (p := (· == dot))
  generalize (baseName p).takeWhile (· == dot) = dots at leading named
  generalize (baseName p).dropWhile (· == dot) = stem at starts named
  have leading : ∀ c ∈ dots, c = dot := fun c member => by simpa using leading c member
  have starts : stem.head? ≠ Option.some dot := by
    intro first
    rw [first] at starts
    simp at starts
  rw [← named] at whole slashless
  have dotted : dot ∈ stem := by
    by_contra absent
    rw [extension, whole, splitExtension_append isFront leading starts slashless,
      Text.findLast?_eq_none absent] at extended
    exact extended rfl
  obtain ⟨stem, more, rfl, last⟩ := Text.exists_last_of_mem dotted
  have filled : stem ≠ [] := by
    rintro rfl
    exact starts rfl
  rw [List.head?_append_of_ne_nil _ filled] at starts
  exact ⟨front, dots, stem, more, whole, isFront, leading, ⟨filled, starts⟩, slashless, last⟩

/-! ## The name of a rendition -/

theorem extension_ne_nil (known : FileKind.ofPath p ≠ .unknown) : extension p ≠ [] := by
  intro bare
  rw [FileKind.ofPath, bare] at known
  exact known (by decide)

theorem splitExtension_join (p : Path) : (splitExtension p).1 ++ (splitExtension p).2 = p := by
  unfold splitExtension
  dsimp only
  split
  · exact List.take_append_drop _ p
  · exact List.append_nil p

/-- The mark of a rendition belongs to the stem of its name. -/
theorem Extended.marked (parts : Extended front dots stem more) :
    Extended front dots (stem ++ renditionMark) more := by
  have mark : slash ∉ renditionMark := by decide
  have slashless := parts.slashless
  simp only [List.mem_append, not_or] at slashless
  refine ⟨parts.isFront, parts.leading, ⟨by simp [parts.starts.1], ?_⟩, ?_, parts.last⟩
  · rw [List.head?_append_of_ne_nil _ parts.starts.1]
    exact parts.starts.2
  · simp only [List.mem_append, not_or]
    exact ⟨slashless.1, ⟨slashless.2.1, mark⟩, slashless.2.2⟩

/-- A rendition stands beside its file, and has the same extension behind a longer name. -/
theorem rendition_parts (extended : extension p ≠ []) :
    directory (rendition p) = directory p ∧
      splitExtension (rendition p) = ((splitExtension p).1 ++ renditionMark, extension p) := by
  obtain ⟨front, dots, stem, more, rfl, parts⟩ := extended_of_extension extended
  have whole : rendition (front ++ (dots ++ (stem ++ dot :: more))) =
      front ++ (dots ++ (stem ++ renditionMark ++ dot :: more)) := by
    rw [rendition, parts.cut]
    simp only [List.append_assoc]
  rw [whole, parts.marked.cut, extension, parts.cut,
    directory_append parts.isFront parts.marked.slashless,
    directory_append parts.isFront parts.slashless]
  simp only [List.append_assoc, and_self]

/-- Dots at the start of a name and dots in the name of a directory end no stem. -/
example : rendition (Text.ofString "v1.2/.page.tar.json") =
    Text.ofString "v1.2/.page.tar-ar.json" := by decide

theorem ofPath_rendition (known : FileKind.ofPath p ≠ .unknown) :
    FileKind.ofPath (rendition p) = FileKind.ofPath p := by
  have parts := (rendition_parts (extension_ne_nil known)).2
  rw [FileKind.ofPath, FileKind.ofPath, extension, parts]

theorem rendition_ne (p : Path) : rendition p ≠ p := by
  intro same
  have long := congrArg List.length same
  rw [rendition, List.length_append, List.length_append,
    show renditionMark.length = 3 from rfl] at long
  have whole := congrArg List.length (splitExtension_join p)
  rw [List.length_append] at whole
  omega

/-- A rendition is one of a single file. -/
theorem rendition_injective (known : FileKind.ofPath p ≠ .unknown)
    (also : FileKind.ofPath q ≠ .unknown) (same : rendition p = rendition q) : p = q := by
  have first := (rendition_parts (extension_ne_nil known)).2
  have second := (rendition_parts (extension_ne_nil also)).2
  rw [same, second, Prod.mk.injEq] at first
  obtain ⟨front, extension⟩ := first
  rw [← splitExtension_join p, ← splitExtension_join q, List.append_cancel_right front]
  exact congrArg _ extension.symm

/-- What has the name of a rendition has a name that an entry can have. -/
theorem isName_of_isRendition (rendition : isRendition p = true) : IsName (baseName p) := by
  rw [isRendition, Text.occursIn_iff] at rendition
  have long := rendition.length_le
  rw [show (renditionMark ++ Text.ofString ".").length = 4 from rfl] at long
  refine ⟨⟨?_, ?_⟩, ?_, fun member => ne_slash_of_mem_baseName member rfl⟩ <;>
  · intro same
    rw [same] at long
    revert long
    decide

end Path

namespace Project

open Disk (Passable)

variable {d : Disk} {root tool p : Path} {excluded : List Text}

/-! ## Renditions are not read -/

/-- A check that cannot be made fails on a path that cannot be passed to the system. -/
theorem isWithin_error {e : AccessError} (failed : isWithin d root p = .error e) :
    e.isRefusal = false := by
  have fails : ∀ {p e}, d.realPathOf p = .error e → e.isRefusal = false := by
    intro p e failed
    unfold Disk.realPathOf at failed
    split at failed
    next f passed =>
      cases failed
      exact Disk.passPath_error passed
    · cases failed
  unfold isWithin at failed
  cases first : d.realPathOf p with
  | error f =>
    rw [first] at failed
    cases failed
    exact fails first
  | ok real =>
    cases second : d.realPathOf root with
    | error f =>
      rw [first, second] at failed
      cases failed
      exact fails second
    | ok other =>
      rw [first, second] at failed
      cases failed

theorem isExcluded_error {e : AccessError} (failed : isExcluded d root tool excluded p = .error e) :
    e.isRefusal = false := by
  unfold isExcluded at failed
  cases inside : isWithin d root p with
  | error f =>
    rw [inside] at failed
    cases failed
    exact isWithin_error inside
  | ok answer =>
    rw [inside] at failed
    cases answer with
    | false => cases failed
    | true =>
      cases own : isWithin d tool p with
      | error f =>
        rw [own] at failed
        cases failed
        exact isWithin_error own
      | ok other =>
        rw [own] at failed
        cases empty : tool.isEmpty <;> rw [empty] at failed <;> cases other <;> cases failed

theorem isExcluded_ne_false_rendition (known : FileKind.ofPath p ≠ .unknown) (d : Disk)
    (root tool : Path) (excluded : List Text) :
    isExcluded d root tool excluded (Path.rendition p) ≠ .ok false := by
  intro included
  obtain ⟨_, _, listed⟩ := isExcluded_eq_false_iff.1 included
  rw [isSetAside, Path.isRendition_rendition known, Bool.or_true] at listed
  cases listed

/-- A rendition is rejected as excluded, unless one of the paths cannot be passed to the system,
    which may be noticed first. -/
theorem read_rendition (known : FileKind.ofPath p ≠ .unknown) (d : Disk) (root tool : Path) :
    read d root tool (Path.rendition p) = .error (.excluded (Path.rendition p)) ∨
      (∃ e, read d root tool (Path.rendition p) = .error (.access e) ∧ e.isRefusal = false) ∧
        ¬ (Passable (Path.rendition p) ∧ Passable root ∧ Passable tool) := by
  have kind : FileKind.ofPath (Path.rendition p) ≠ .unknown := by
    rwa [Path.ofPath_rendition known]
  unfold read refusal?
  rw [if_neg kind]
  cases checked : isExcluded d root tool excludedNames (Path.rendition p) with
  | error e =>
    refine .inr ⟨⟨e, rfl, isExcluded_error checked⟩, fun ⟨passable, first, second⟩ => ?_⟩
    obtain ⟨answer, given⟩ := isExcluded_of_passable first second passable d excludedNames
    rw [given] at checked
    cases checked
  | ok answer =>
    cases answer with
    | true => exact .inl rfl
    | false => exact absurd checked (isExcluded_ne_false_rendition known d root tool excludedNames)

theorem not_mem_scan_rendition (known : FileKind.ofPath p ≠ .unknown) {s : Search}
    {found : List Path} {entry : LogEntry} (given : scan d s = .ok (found, entry)) :
    Path.rendition p ∉ found := fun member =>
  isExcluded_ne_false_rendition known _ _ _ _ (isExcluded_of_scan given member).2

end Project

end Arabize
