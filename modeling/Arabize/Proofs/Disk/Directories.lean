import Arabize.Proofs.Disk.Change
import Arabize.Proofs.Disk.Path

/-! # Directories that are there

A way that goes on behind a path goes through a directory there.  So the directory that a
file or a directory is in exists, and to make one that is there changes nothing.  One that
could not be made is not there.
-/

namespace Arabize.Disk

variable {d : Disk} {links : Nat} {loc : Location} {p : Path}

/-- A way that comes to a name has come to a directory before. -/
theorem Leads.before {part more : List Text} {spot : Spot}
    (leads : Leads d .target links loc (part ++ more) spot)
    (named : ¬ more.all List.isEmpty = true) :
    ∃ l, Leads d .target links loc part (.there l .directory) := by
  generalize whole : part ++ more = rest at leads
  induction leads generalizing part with
  | done =>
    obtain ⟨-, rfl⟩ := List.append_eq_nil_iff.1 whole
    exact absurd rfl named
  | skip skipped _ ih =>
    obtain ⟨rfl, -⟩ | ⟨part, rfl, rfl⟩ := List.append_eq_cons_iff.1 whole
    · exact ⟨_, .done⟩
    · obtain ⟨l, found⟩ := ih rfl
      exact ⟨l, .skip skipped found⟩
  | up _ ih =>
    obtain ⟨rfl, -⟩ | ⟨part, rfl, rfl⟩ := List.append_eq_cons_iff.1 whole
    · exact ⟨_, .done⟩
    · obtain ⟨l, found⟩ := ih rfl
      exact ⟨l, .up found⟩
  | free _ _ ends =>
    obtain ⟨rfl, -⟩ | ⟨part, rfl, rfl⟩ := List.append_eq_cons_iff.1 whole
    · exact ⟨_, .done⟩
    · rw [List.all_append, Bool.and_eq_true] at ends
      exact absurd ends.2 named
  | directory nameable present _ ih =>
    obtain ⟨rfl, -⟩ | ⟨part, rfl, rfl⟩ := List.append_eq_cons_iff.1 whole
    · exact ⟨_, .done⟩
    · obtain ⟨l, found⟩ := ih rfl
      exact ⟨l, .directory (nameable.of_ne_creation (by decide)) present found⟩
  | file =>
    obtain ⟨rfl, -⟩ | ⟨part, rfl, nothing⟩ := List.append_eq_cons_iff.1 whole
    · exact ⟨_, .done⟩
    · obtain ⟨-, rfl⟩ := List.append_eq_nil_iff.1 nothing.symm
      exact absurd rfl named
  | link _ _ own => rcases own with own | own <;> cases own
  | @along _ _ _ _ target _ nameable present _ _ _ ih =>
    obtain ⟨rfl, -⟩ | ⟨part, rfl, rfl⟩ := List.append_eq_cons_iff.1 whole
    · exact ⟨_, .done⟩
    · obtain ⟨l, found⟩ := ih (List.append_assoc _ part more)
      exact ⟨l, .along (nameable.of_ne_creation (by decide)) present (by simp) (by simp) found⟩

theorem leads_of_isEmpty {names : List Text} (empty : names.all List.isEmpty = true) :
    Leads d .target links loc names (.there loc .directory) := by
  induction names with
  | nil => exact .done
  | cons name rest ih =>
    rw [List.all_cons, Bool.and_eq_true] at empty
    exact .skip (.inl (List.isEmpty_iff.1 empty.1)) (ih empty.2)

theorem isDirectory_iff : d.isDirectory p = true ↔ (p ≠ [] ∧ ¬ maxPath < Path.size p) ∧
    ∃ l, Leads d .target maxLinks (d.origin p) (Path.components p) (.there l .directory) := by
  simp only [← walk_eq_ok_iff]
  unfold isDirectory find
  by_cases empty : p = []
  · simp [empty]
  · by_cases long : maxPath < Path.size p
    · simp [empty, long]
    · simp only [empty, long, if_false]
      cases found : d.walk .target maxLinks (d.origin p) (Path.components p) with
      | error e => simp
      | ok spot =>
        cases spot with
        | free l => simp
        | there l e => cases e <;> simp [empty]

theorem hasPath_of_isDirectory (directory : d.isDirectory p = true) : d.hasPath p = true := by
  unfold isDirectory at directory
  unfold hasPath
  split at directory
  next found => rw [found]
  · cases directory

/-- The directory that a directory is in is there. -/
theorem isDirectory_parent (directory : d.isDirectory p = true)
    (named : (Path.parentAndName p).2 ≠ []) (filled : (Path.parentAndName p).1 ≠ []) :
    d.isDirectory (Path.parentAndName p).1 = true := by
  obtain ⟨⟨_, short⟩, l, found⟩ := isDirectory_iff.1 directory
  have shorter : ¬ maxPath < Path.size (Path.parentAndName p).1 := by
    obtain ⟨rest, whole⟩ := Path.parent_begins p
    rw [← whole, Path.size_append] at short
    omega
  refine isDirectory_iff.2 ⟨⟨filled, shorter⟩, ?_⟩
  rcases Path.parent_cases named with slashes | ⟨rest, whole, goesOn⟩
  · exact ⟨_, leads_of_isEmpty ((Text.splitOn_isEmpty_iff _ _).2 slashes)⟩
  · have same : d.origin (Path.parentAndName p).1 = d.origin p := by
      have absolute := Path.isAbsolute_append filled (Path.slash :: rest)
      rw [← whole] at absolute
      rw [origin, origin, absolute]
    rw [whole, Path.components, Text.splitOn_append, ← whole] at found
    rw [same]
    exact found.before (mt (Text.splitOn_isEmpty_iff _ _).1 goesOn)

/-! ## Steps of making directories -/

theorem makeDirectories_of_unnamed (unnamed : (Path.parentAndName p).2 = []) (d : Disk) :
    makeDirectories p d = makeDirectory p d := by
  rw [makeDirectories, dif_pos unnamed]

theorem makeDirectories_of_there
    (there : (Path.parentAndName p).1 = [] ∨ d.hasPath (Path.parentAndName p).1 = true) :
    makeDirectories p d = makeDirectory p d := by
  rw [makeDirectories, if_pos there]
  split <;> rfl

/-- What is done for a directory once those it is in were made, or could not be. -/
def afterParent (p : Path) : Except AccessError Unit → Change Unit
  | .error (.refused .exists _), d =>
    if (Path.parentAndName p).2 = Path.here then (.ok (), d) else makeDirectory p d
  | .error e, d => (.error e, d)
  | .ok (), d => if (Path.parentAndName p).2 = Path.here then (.ok (), d) else makeDirectory p d

theorem makeDirectories_of_below (named : (Path.parentAndName p).2 ≠ [])
    (below : ¬ ((Path.parentAndName p).1 = [] ∨ d.hasPath (Path.parentAndName p).1 = true)) :
    makeDirectories p d = afterParent p (makeDirectories (Path.parentAndName p).1 d).1
      (makeDirectories (Path.parentAndName p).1 d).2 := by
  rw [makeDirectories, dif_neg named, if_neg below]
  rcases makeDirectories (Path.parentAndName p).1 d with ⟨e | _, made⟩
  · cases e with
    | refused why path => cases why <;> rfl
    | zeroInPath | unencodable | undecodable => rfl
  · rfl

/-! ## Making what is there -/

theorem makeDirectory_of_isDirectory (directory : d.isDirectory p = true) :
    makeDirectory p d = (.ok (), d) := by
  unfold makeDirectory
  split
  next l found =>
    -- Nothing is free where a directory is.
    obtain ⟨_, k, leads⟩ := isDirectory_iff.1 directory
    have free := (locate_eq_ok_iff.1 found).2.target (by simp [Spot.entry?])
    rw [← walk_eq_ok_iff] at leads free
    rw [leads] at free
    cases free
  · rw [if_pos directory]
  · rw [if_pos directory]

/-- To make a directory that is there changes nothing. -/
theorem makeDirectories_of_isDirectory (directory : d.isDirectory p = true) :
    makeDirectories p d = (.ok (), d) := by
  have makes := makeDirectory_of_isDirectory directory
  by_cases unnamed : (Path.parentAndName p).2 = []
  · rw [makeDirectories_of_unnamed unnamed, makes]
  · rw [makeDirectories_of_there, makes]
    by_cases empty : (Path.parentAndName p).1 = []
    · exact .inl empty
    · exact .inr (hasPath_of_isDirectory (isDirectory_parent directory unnamed empty))

/-! ## Directories that could not be made -/

theorem makeDirectory_of_error {e : AccessError} {after : Disk}
    (failed : makeDirectory p d = (.error e, after)) : after.isDirectory p = false := by
  rw [← Bool.not_eq_true]
  intro directory
  obtain rfl : after = d := by
    unfold makeDirectory at failed
    split at failed
    · cases failed
    all_goals
      split at failed
      · cases failed
      · cases failed
        rfl
  rw [makeDirectory_of_isDirectory directory] at failed
  cases failed

/-- A directory that could not be made is not there, whatever was made of those it is in. -/
theorem makeDirectories_of_error {e : AccessError}
    (failed : (makeDirectories p d).1 = .error e) :
    (makeDirectories p d).2.isDirectory p = false := by
  -- With the directory, the one that it is in would be there.
  have outer : ∀ {p : Path} {c : Disk}, (Path.parentAndName p).2 ≠ [] →
      ¬ ((Path.parentAndName p).1 = [] ∨ d.hasPath (Path.parentAndName p).1 = true) →
      c.isDirectory (Path.parentAndName p).1 = false → c.isDirectory p = false := by
    intro p c named below absent
    rw [← Bool.not_eq_true]
    intro directory
    rw [isDirectory_parent directory named (not_or.1 below).1] at absent
    cases absent
  fun_induction makeDirectories p d with
  | case1 p => exact makeDirectory_of_error (Prod.ext failed rfl)
  | case2 p => exact makeDirectory_of_error (Prod.ext failed rfl)
  | case3 p head name named below made path here above ih => cases failed
  | case4 p head name named below made path other above ih =>
    exact makeDirectory_of_error (Prod.ext failed rfl)
  | case5 p head name named below e made above other ih =>
    rw [above] at ih
    exact outer named below (ih failed)
  | case6 p head name named below made above here ih => cases failed
  | case7 p head name named below made above other ih =>
    exact makeDirectory_of_error (Prod.ext failed rfl)

/-! ## The directory of a file -/

/-- The way to a file ends with a name. -/
theorem Leads.getLast?_ne {aim : Aim} {names : List Text} {spot : Spot} {bytes : Bytes}
    (leads : Leads d aim links loc names spot) (file : spot.entry? = some (.file bytes)) :
    names.getLast? ≠ some [] := by
  have behind : ∀ {name : Text} {more : List Text}, ¬ (name = [] ∨ name = Path.here) →
      more.getLast? ≠ some [] → (name :: more).getLast? ≠ some [] := by
    intro name more named other
    cases more with
    | nil => simpa using fun same => named (.inl same)
    | cons next rest => rwa [List.getLast?_cons_cons]
  induction leads with
  | done => cases file
  | @skip _ _ name more _ _ inner ih =>
    cases more with
    | nil =>
      cases inner
      cases file
    | cons next rest =>
      rw [List.getLast?_cons_cons]
      exact ih file
  | up _ ih => exact behind (by decide) (ih file)
  | free _ _ _ => cases file
  | directory named _ _ ih => exact behind named.1 (ih file)
  | file named _ => exact behind named.1 (by simp)
  | link _ _ _ => cases file
  | @along _ _ _ more target _ named _ _ _ _ ih =>
    refine behind named.1 fun last => ih file ?_
    rw [List.getLast?_append, last]
    rfl

/-- A way to a file is one to write it. -/
theorem Leads.creation {names : List Text} {spot : Spot} {bytes : Bytes}
    (leads : Leads d .target links loc names spot) (file : spot.entry? = some (.file bytes)) :
    Leads d .creation links loc names spot := by
  have stronger : ∀ {name : Text} {more : List Text}, Named .target name more →
      (name :: more).getLast? ≠ some [] → Named .creation name more := by
    intro name more named last
    refine ⟨named.1, named.2.1, fun ⟨_, goesOn, empty⟩ => last ?_, named.2.2.2⟩
    have final := List.all_eq_true.1 empty _ (List.getLast_mem goesOn)
    rw [List.getLast?_eq_some_getLast (List.cons_ne_nil _ _), List.getLast_cons goesOn,
      List.isEmpty_iff.1 final]
  have last := leads.getLast?_ne file
  induction leads with
  | done => cases file
  | skip skipped inner ih => exact .skip skipped (ih file (inner.getLast?_ne file))
  | up inner ih => exact .up (ih file (inner.getLast?_ne file))
  | free _ _ _ => cases file
  | directory named present inner ih =>
    exact .directory (stronger named last) present (ih file (inner.getLast?_ne file))
  | file named present => exact .file (stronger named last) present
  | link _ _ own => rcases own with own | own <;> cases own
  | along named present _ _ inner ih =>
    exact .along (stronger named last) present (by simp) (by simp)
      (ih file (inner.getLast?_ne file))

theorem lands_of_locate {l : Location} {bytes : Bytes}
    (found : d.locate .target p = .ok (.there l (.file bytes))) : Lands d p l := by
  obtain ⟨walkable, leads⟩ := locate_eq_ok_iff.1 found
  exact ⟨_, locate_eq_ok_iff.2 ⟨walkable, leads.creation rfl⟩, trivial, rfl⟩

theorem isDirectory_here (d : Disk) : d.isDirectory Path.here = true := by
  have components : Path.components Path.here = [Path.here] := by decide
  refine isDirectory_iff.2 ⟨by decide, d.origin Path.here, ?_⟩
  rw [components]
  exact .skip (.inr rfl) .done

/-- A path that ends in no name has an empty component at its end. -/
theorem getLast?_components (filled : p ≠ []) (unnamed : Path.baseName p = []) :
    (Path.components p).getLast? = .some [] := by
  obtain ⟨front, last, rfl⟩ := List.eq_nil_or_concat p |>.resolve_left filled
  have isSlash : last = Path.slash := by
    refine Classical.byContradiction fun other => ?_
    simp [Path.baseName, other] at unnamed
  rw [isSlash, Path.components, List.concat_eq_append, Text.splitOn_append]
  simp [Text.splitOn]

/-- The directory of a file is there. -/
theorem isDirectory_directory {l : Location} {bytes : Bytes}
    (found : d.locate .target p = .ok (.there l (.file bytes))) (filled : Path.directory p ≠ []) :
    d.isDirectory (Path.directory p) = true := by
  obtain ⟨walkable, leads⟩ := locate_eq_ok_iff.1 found
  have named : Path.baseName p ≠ [] := fun unnamed =>
    leads.getLast?_ne rfl (getLast?_components walkable.2.1 unnamed)
  obtain ⟨_, _, short⟩ := walkable
  have shorter : ¬ maxPath < Path.size (Path.directory p) := by
    obtain ⟨rest, whole⟩ := Path.directory_begins p
    rw [← whole, Path.size_append] at short
    omega
  refine isDirectory_iff.2 ⟨⟨filled, shorter⟩, ?_⟩
  rcases Path.directory_cases p with slashes | ⟨rest, whole, sub⟩
  · exact ⟨_, leads_of_isEmpty ((Text.splitOn_isEmpty_iff _ _).2 slashes)⟩
  · have same : d.origin (Path.directory p) = d.origin p := by
      have absolute := Path.isAbsolute_append filled (Path.slash :: rest)
      rw [← whole] at absolute
      rw [origin, origin, absolute]
    rw [whole, Path.components, Text.splitOn_append, ← whole] at leads
    rw [same]
    refine leads.before (mt (Text.splitOn_isEmpty_iff _ _).1 fun slashes => ?_)
    obtain ⟨c, member⟩ := List.exists_mem_of_ne_nil _ named
    exact Path.ne_slash_of_mem_baseName member (slashes c (sub member))

end Arabize.Disk
