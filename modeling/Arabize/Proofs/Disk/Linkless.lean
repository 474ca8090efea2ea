import Arabize.Proofs.Disk.RealNames
import Mathlib.Data.List.Basic
import Mathlib.Data.List.Induction
import Mathlib.Data.List.Nodup

/-! # Trees without links

Where no entry is a link, the real path of a path is the path written out from the root, with `.`
left out and `..` carried out (`Tree.realNames_eq`).  So the absolute form of a path has the real
path that the path has, and a name is added to a real path as it is added to a path.

`Tree` says what a file tree is: each entry stands in a directory, under a name that an entry can
have and the system can be asked for, and no location has two entries.
-/

namespace Arabize

/-! ## Normal components -/

namespace Path

variable {kept cs : List Text} {name : Text} {p q : Path}

theorem normalComponents_nil (kept : List Text) : normalComponents true kept [] = kept.reverse := by
  rw [normalComponents]

/-- Empty components are left out. -/
theorem normalComponents_empty (kept cs : List Text) :
    normalComponents true kept ([] :: cs) = normalComponents true kept cs := by
  simp only [normalComponents, true_or, if_true]

theorem normalComponents_append (kept xs ys : List Text) :
    normalComponents true kept (xs ++ ys) =
      normalComponents true (normalComponents true kept xs).reverse ys := by
  induction xs generalizing kept with
  | nil => rw [List.nil_append, normalComponents_nil, List.reverse_reverse]
  | cons c xs ih =>
    simp only [List.cons_append, normalComponents]
    split
    · exact ih kept
    · split
      · cases kept with
        | nil => exact ih []
        | cons k ks =>
          dsimp only
          split
          · exact ih (up :: k :: ks)
          · exact ih ks
      · exact ih (c :: kept)

/-- Components that are names, or empty, are kept as they are, or left out. -/
theorem normalComponents_filter (names : ∀ name ∈ cs.filter fun c => !c.isEmpty, IsName name)
    (kept : List Text) :
    normalComponents true kept cs = kept.reverse ++ cs.filter fun c => !c.isEmpty := by
  rw [← normalComponents_of_names names]
  clear names
  induction cs generalizing kept with
  | nil => rfl
  | cons c cs ih =>
    cases c with
    | nil => rw [List.filter_cons_of_neg (by simp), ← ih, normalComponents_empty]
    | cons d c =>
      rw [List.filter_cons_of_pos (by simp)]
      simp only [normalComponents, ih]

theorem normalComponents_concat (named : IsName name) (kept cs : List Text) :
    normalComponents true kept (cs ++ [name]) = normalComponents true kept cs ++ [name] := by
  rw [normalComponents_append, normalComponents_of_names (List.forall_mem_singleton.2 named),
    List.reverse_reverse]

/-- What is joined to a path is carried out where the path ends. -/
theorem normalComponents_join (relative : isAbsolute q = false) (kept : List Text) (p : Path) :
    normalComponents true kept (components (join p q)) =
      normalComponents true (normalComponents true kept (components p)).reverse (components q) := by
  rw [join, relative, if_neg Bool.false_ne_true]
  split
  next open_ =>
    rcases open_ with rfl | ends
    · rw [List.nil_append, show components [] = [[]] from rfl, normalComponents_empty,
        normalComponents_nil, List.reverse_reverse]
    · -- A slash at the end stands for an empty component.
      obtain ⟨front, rfl⟩ := List.getLast?_eq_some_iff.1 ends
      have whole : components (front ++ [slash]) = components front ++ [[]] :=
        Text.splitOn_append front []
      have joined : components (front ++ [slash] ++ q) = components front ++ components q := by
        rw [List.append_assoc]
        exact Text.splitOn_append front q
      rw [whole, joined, normalComponents_append, normalComponents_append kept _ [[]],
        normalComponents_empty, normalComponents_nil, List.reverse_reverse]
  · have joined : components (p ++ slash :: q) = components p ++ components q :=
      Text.splitOn_append p q
    rw [joined, normalComponents_append]

theorem components_slash (p : Path) : components (slash :: p) = [] :: components p := by
  rw [components, Text.splitOn, if_pos rfl]
  rfl

theorem subset_of_mem_components (member : name ∈ components p) : name ⊆ p := by
  induction p generalizing name with
  | nil =>
    rw [List.mem_singleton.1 member]
    exact List.nil_subset _
  | cons c p ih =>
    simp only [components, Text.splitOn] at member
    split at member
    · rcases List.mem_cons.1 member with rfl | inner
      · exact List.nil_subset _
      · exact List.subset_cons_of_subset c (ih inner)
    · split at member
      · rw [List.mem_singleton.1 member]
        exact List.cons_subset_cons c (List.nil_subset p)
      next piece rest pieces =>
        rcases List.mem_cons.1 member with rfl | inner
        · refine List.cons_subset_cons c (ih ?_)
          rw [components, pieces]
          exact List.mem_cons_self
        · refine List.subset_cons_of_subset c (ih ?_)
          rw [components, pieces]
          exact List.mem_cons_of_mem _ inner

/-- Names that are written as a path are the components of the path, but for empty ones. -/
theorem normalComponents_intercalate (names : ∀ name ∈ cs, IsName name) :
    normalComponents true [] (components (Text.intercalate [slash] cs)) = cs := by
  by_cases empty : cs = []
  · subst empty
    rfl
  · rw [components, Text.splitOn_intercalate empty fun name member => (names name member).2.2,
      normalComponents_of_names names]
    rfl

/-- What is left of the components of a path are names. -/
theorem isName_of_normal (p : Path) :
    ∀ name ∈ normalComponents true [] (components p), IsName name := by
  intro name member
  obtain ⟨proper, place⟩ := mem_normalComponents (by simp) member
  exact ⟨proper.1, proper.2, not_mem_of_mem_components (place.resolve_left (by simp))⟩

theorem leadingSlashes_cases (absolute : isAbsolute p = true) :
    leadingSlashes p = [slash, slash] ∨ leadingSlashes p = [slash] := by
  rw [leadingSlashes, absolute]
  simp only [Bool.not_true, Bool.false_eq_true, if_false]
  split
  · exact .inl rfl
  · exact .inr rfl

theorem normalComponents_normalize (absolute : isAbsolute p = true) :
    normalComponents true [] (components (normalize p)) =
      normalComponents true [] (components p) := by
  have names := isName_of_normal p
  have skip : ∀ t, normalComponents true [] (components (slash :: t)) =
      normalComponents true [] (components t) := fun t => by
    rw [components_slash, normalComponents_empty]
  rw [normalize, absolute]
  rcases leadingSlashes_cases absolute with two | one
  · rw [two, List.cons_append, List.cons_append, if_neg (List.cons_ne_nil _ _), skip, skip,
      List.nil_append, normalComponents_intercalate names]
  · rw [one, List.cons_append, if_neg (List.cons_ne_nil _ _), skip, List.nil_append,
      normalComponents_intercalate names]

theorem isAbsolute_join {p : Path} (absolute : isAbsolute p = true) (q : Path) :
    isAbsolute (join p q) = true := by
  have filled : p ≠ [] := by
    rintro rfl
    cases absolute
  rw [join]
  split
  · assumption
  · split <;> rw [isAbsolute_append filled, absolute]

theorem isAbsolute_normalize (absolute : isAbsolute p = true) :
    isAbsolute (normalize p) = true := by
  have starts : ∃ t, leadingSlashes p = slash :: t := by
    rcases leadingSlashes_cases absolute with two | one
    · exact ⟨[slash], two⟩
    · exact ⟨[], one⟩
  obtain ⟨t, front⟩ := starts
  rw [normalize, front, List.cons_append, if_neg (List.cons_ne_nil _ _)]
  rfl

end Path

namespace Disk

open Arabize.Path (IsName)

variable {d : Disk} {p : Path} {loc l : Location} {rest : List Text} {name : Text} {e : Entry}

/-! ## Trees -/

instance (name : Text) : Decidable (IsName name) := inferInstanceAs (Decidable (_ ∧ _))

/-- A file tree without links, whose working directory is one of its directories. -/
structure Tree (d : Disk) : Prop where
  rooted : Path.isAbsolute d.cwd = true
  home : d.entry? (Path.names d.cwd) = some .directory
  unique : (d.entries.map Prod.fst).Nodup
  named : ∀ e ∈ d.entries, ∀ name ∈ e.1, IsName name ∧ Passable name
  inside : ∀ e ∈ d.entries, e.1 ≠ [] ∧ d.entry? e.1.dropLast = some .directory
  linkless : d.linkCount = 0

theorem mem_of_present (there : d.entry? l = some e) (below : l ≠ []) : (l, e) ∈ d.entries := by
  rw [Disk.entry?, if_neg below] at there
  exact mem_of_entryIn? there

theorem Tree.link? (tree : Tree d) (l : Location) : d.link? l = none :=
  link?_of_linkCount tree.linkless l

theorem Tree.entry?_ne_link (tree : Tree d) (l : Location) (target : Path) :
    d.entry? l ≠ some (.link target) := by
  rw [ne_eq, ← link?_eq_some_iff, tree.link?]
  exact nofun

/-- The names on the way to an entry are names that the system can be asked for. -/
theorem Tree.names_of_present (tree : Tree d) (there : d.entry? l = some e) :
    ∀ name ∈ l, IsName name ∧ Passable name := by
  intro name member
  exact tree.named _ (mem_of_present there (List.ne_nil_of_mem member)) name member

theorem Tree.names_below {names : List Text} (tree : Tree d)
    (there : d.entry? (l ++ names) = some e) : ∀ name ∈ names, IsName name ∧ Passable name :=
  fun name member => tree.names_of_present there name (List.mem_append_right _ member)

/-- A file stands some names below any directory. -/
theorem ne_nil_of_file {names : List Text} {bytes : Bytes} (directory : d.entry? l = some .directory)
    (file : d.entry? (l ++ names) = some (.file bytes)) : names ≠ [] := by
  rintro rfl
  rw [List.append_nil, directory] at file
  cases file

/-- What an entry stands in is a directory. -/
theorem Tree.directory_of_append (tree : Tree d) {below : List Text}
    (there : d.entry? (l ++ below) = some e) (nonempty : below ≠ []) :
    d.entry? l = some .directory := by
  induction below using List.reverseRecOn generalizing e with
  | nil => exact absurd rfl nonempty
  | append_singleton below name ih =>
    have parent := (tree.inside _ (mem_of_present there (by simp))).2
    rw [← List.append_assoc, List.dropLast_concat] at parent
    by_cases last : below = []
    · rwa [last, List.append_nil] at parent
    · exact ih parent last

theorem Tree.isName_cwd (tree : Tree d) : ∀ name ∈ Path.names d.cwd, IsName name :=
  fun name member => (tree.names_of_present tree.home name member).1

theorem Tree.grounded (tree : Tree d) : Grounded d :=
  fun name member => ⟨(tree.isName_cwd name member).1.2, (tree.isName_cwd name member).2.1⟩

/-! ## Ways -/

/-- What an entry stands in is a directory; so is the root. -/
theorem Tree.directory_dropLast (tree : Tree d) (there : d.entry? l = some e) :
    d.entry? l.dropLast = some .directory := by
  rcases List.eq_nil_or_concat' l with rfl | ⟨init, last, rfl⟩
  · rfl
  · rw [List.dropLast_concat]
    exact tree.directory_of_append there (List.cons_ne_nil last [])

theorem Tree.directory_origin (tree : Tree d) (p : Path) :
    d.entry? (d.origin p) = some .directory := by
  rw [origin]
  split
  · rfl
  · exact tree.home

/-- A way from a directory only goes through directories: what its spot says stands there, in a
    directory. -/
theorem Leads.stands {aim : Aim} {links : Nat} {spot : Spot}
    (leads : Leads d aim links loc rest spot) (tree : Tree d)
    (here : d.entry? loc = some .directory) :
    d.entry? spot.location = spot.entry? ∧ d.entry? spot.location.dropLast = some .directory := by
  induction leads with
  | done => exact ⟨here, tree.directory_dropLast here⟩
  | skip _ _ ih => exact ih here
  | up _ ih => exact ih (tree.directory_dropLast here)
  | free _ absent => exact ⟨absent, by rwa [Spot.location, List.dropLast_concat]⟩
  | directory _ present _ ih => exact ih present
  | file _ present | link _ present => exact ⟨present, tree.directory_dropLast present⟩
  | along _ present _ _ _ _ => exact absurd present (tree.entry?_ne_link _ _)

/-- In a tree there stands what a path is found to lead to, a directory above it included. -/
theorem Tree.stands_of_locate {aim : Aim} {spot : Spot} (tree : Tree d)
    (found : d.locate aim p = .ok spot) :
    d.entry? spot.location = spot.entry? ∧ d.entry? spot.location.dropLast = some .directory :=
  (locate_eq_ok_iff.1 found).2.stands tree (tree.directory_origin p)

/-! ## Real paths -/

/-- Where no link is met, a way ends where its components are carried out. -/
theorem follows_of_linkless (free : ∀ l, d.link? l = none) (begins : ∀ name ∈ loc, IsName name)
    (slashless : Slashless rest) :
    Follows d 0 loc rest (Path.normalComponents true loc.reverse rest) := by
  induction rest generalizing loc with
  | nil =>
    rw [Path.normalComponents_nil, List.reverse_reverse]
    exact .done
  | cons c rest ih =>
    obtain ⟨here, behind⟩ := slashless_cons.1 slashless
    simp only [Path.normalComponents]
    split
    next skipped => exact .skip skipped (ih begins behind)
    next named =>
      split
      next isUp =>
        subst isUp
        rcases List.eq_nil_or_concat' loc with rfl | ⟨init, last, rfl⟩
        · exact .up (ih begins behind)
        · have proper := (begins last (by simp)).2.1
          have onward := @ih init (fun n member => begins n (by simp [member])) behind
          simp only [List.reverse_append, List.reverse_singleton, List.singleton_append,
            if_neg proper]
          refine .up ?_
          rwa [List.dropLast_concat]
      next other =>
        have onward := @ih (loc ++ [c]) (fun n member => ?_) behind
        · rw [List.reverse_append, List.reverse_singleton, List.singleton_append] at onward
          exact .past named other (free _) onward
        · rcases List.mem_append.1 member with inside | last
          · exact begins n inside
          · rw [List.mem_singleton.1 last]
            exact ⟨not_or.1 named, other, here⟩

theorem Tree.realNames_eq (tree : Tree d) (p : Path) :
    d.realNames p = Path.normalComponents true (d.origin p).reverse (Path.components p) := by
  have begins := tree.grounded.origin p
  have follows := follows_of_linkless tree.link? begins (slashless_components p)
  rw [realNames_of_follows follows,
    Path.normalComponents_of_names (follows.isName begins (slashless_components p))]
  rfl

/-- An absolute path counts from the root. -/
theorem Tree.realNames_of_isAbsolute (tree : Tree d) (absolute : Path.isAbsolute p = true) :
    d.realNames p = Path.normalComponents true [] (Path.components p) := by
  rw [tree.realNames_eq, origin, if_pos absolute]
  rfl

theorem Tree.isAbsolute_absolute (tree : Tree d) (p : Path) :
    Path.isAbsolute (Path.absolute d.cwd p) = true := by
  rw [Path.absolute]
  split
  · exact Path.isAbsolute_normalize ‹_›
  · exact Path.isAbsolute_normalize (Path.isAbsolute_join tree.rooted p)

/-- A path and its absolute form have the same real path. -/
theorem Tree.realNames_absolute (tree : Tree d) (p : Path) :
    d.realNames (Path.absolute d.cwd p) = d.realNames p := by
  rw [tree.realNames_of_isAbsolute (tree.isAbsolute_absolute p), Path.absolute]
  split
  next absolute =>
    rw [Path.normalComponents_normalize absolute, tree.realNames_of_isAbsolute absolute]
  next relative =>
    have home : Path.normalComponents true [] (Path.components d.cwd) = Path.names d.cwd :=
      Path.normalComponents_filter tree.isName_cwd []
    rw [Path.normalComponents_normalize (Path.isAbsolute_join tree.rooted p),
      Path.normalComponents_join (Bool.eq_false_iff.2 relative), home, tree.realNames_eq, origin,
      if_neg relative]

/-- A name that is joined to a path is added to its real path. -/
theorem Tree.realNames_join (tree : Tree d) (absolute : Path.isAbsolute p = true)
    (named : IsName name) : d.realNames (Path.join p name) = d.realNames p ++ [name] := by
  have relative : Path.isAbsolute name = false := by
    rw [Path.isAbsolute, beq_eq_false_iff_ne]
    exact fun front => named.2.2 (List.mem_of_mem_head? front)
  have pieces : Path.components name = [name] := Text.splitOn_of_not_mem named.2.2
  rw [tree.realNames_of_isAbsolute (Path.isAbsolute_join absolute name),
    tree.realNames_of_isAbsolute absolute, Path.normalComponents_join relative, pieces,
    Path.normalComponents_of_names (List.forall_mem_singleton.2 named), List.reverse_reverse]

/-! ## Names in a directory -/

theorem isSome_entryIn?_iff {entries : List (Location × Entry)} :
    (entryIn? l entries).isSome = true ↔ l ∈ entries.map Prod.fst := by
  induction entries with
  | nil => simp [entryIn?]
  | cons first rest ih =>
    obtain ⟨k, f⟩ := first
    simp only [entryIn?, List.map_cons, List.mem_cons]
    split
    next same => simp [same]
    next other => simp [ih, Ne.symm other]

theorem mem_namesIn_iff : name ∈ d.namesIn loc ↔ (d.entry? (loc ++ [name])).isSome = true := by
  have below : loc ++ [name] ≠ [] := by simp
  rw [Disk.entry?, if_neg below, isSome_entryIn?_iff, namesIn, List.mem_filterMap, List.mem_map]
  refine exists_congr fun e => and_congr_right fun _ => ?_
  constructor
  · intro given
    split at given
    next inside => rw [← inside.1, List.dropLast_append_getLast? name given]
    · cases given
  · intro same
    rw [if_pos ⟨by rw [same, List.dropLast_concat], by rw [same]; exact below⟩, same,
      List.getLast?_concat]

/-- A directory has no name twice. -/
theorem Tree.nodup_namesIn (tree : Tree d) (loc : Location) : (d.namesIn loc).Nodup := by
  have names : d.namesIn loc = (d.entries.map Prod.fst).filterMap fun l =>
      if l.dropLast = loc ∧ l ≠ [] then l.getLast? else none := by
    rw [List.filterMap_map]
    rfl
  have whole : ∀ l n, (if l.dropLast = loc ∧ l ≠ [] then l.getLast? else none) = some n →
      l = loc ++ [n] := by
    intro l n given
    split at given
    next inside => rw [← inside.1, List.dropLast_append_getLast? n given]
    · cases given
  rw [names]
  refine List.Nodup.filterMap (fun l k n first second => ?_) tree.unique
  rw [whole l n first, whole k n second]

end Disk

end Arabize
