import Arabize.Proofs.Disk.Linkless

/-! # What remains of a tree

Files are written and directories are made where a path leads to nothing yet, or to a file, and in
a tree that is in a directory of the tree.  What is taken away is a file.  So after each change of
a disk a tree is a tree again, with all its directories where they were (`Remains`), and nothing
else has to be known of the change to go on.
-/

namespace Arabize.Disk

open Arabize.Path (IsName)

variable {d c b : Disk} {aim : Aim} {p : Path} {l k : Location} {e : Entry} {spot : Spot}

/-- What is left of a tree: a tree, with all directories of the first one. -/
structure Remains (d c : Disk) : Prop where
  tree : Tree c
  keeps : Keeps d c

theorem Remains.refl (tree : Tree d) : Remains d d := ⟨tree, .refl d⟩

theorem Remains.trans (first : Remains d c) (second : Remains c b) : Remains d b :=
  ⟨second.tree, first.keeps.trans second.keeps⟩

/-- A tree has no links that could be lost. -/
theorem Tree.keeps (tree : Tree d) (cwd : c.cwd = d.cwd)
    (kept : ∀ k, d.entry? k = some .directory → c.entry? k = some .directory) : Keeps d c :=
  ⟨cwd, kept _, fun link => absurd link (tree.entry?_ne_link _ _)⟩

/-! ## Where a path leads in a tree -/

theorem Tree.realNames_of_locate (tree : Tree d) (found : d.locate aim p = .ok spot) :
    d.realNames p = spot.location := by
  obtain ⟨_, leads⟩ := locate_eq_ok_iff.1 found
  refine (leads.target fun target link => ?_).realNames tree.grounded
  exact tree.entry?_ne_link _ target ((tree.stands_of_locate found).1.trans link)

/-- The names in the real path of a path can be passed to the system as the path can. -/
theorem Tree.passable_realNames (tree : Tree d) (passable : Passable p) :
    ∀ name ∈ d.realNames p, Passable name := by
  intro name member
  have begins := tree.grounded.origin p
  rw [tree.realNames_eq] at member
  obtain ⟨_, before | inside⟩ := Path.mem_normalComponents
    (fun n inside => ⟨(begins n (List.mem_reverse.1 inside)).1,
      (begins n (List.mem_reverse.1 inside)).2.1⟩) member
  · exact (tree.names_of_present (tree.directory_origin p) name (List.mem_reverse.1 before)).2
  · exact passable.of_subset (Path.subset_of_mem_components inside)

/-! ## Entries of a changed list -/

theorem mem_putIn {entries : List (Location × Entry)} {x : Location × Entry}
    (member : x ∈ putIn l e entries) : x = (l, e) ∨ x ∈ entries := by
  induction entries with
  | nil => exact .inl (List.mem_singleton.1 member)
  | cons first rest ih =>
    simp only [putIn] at member
    split at member
    next here =>
      subst here
      exact (List.mem_cons.1 member).imp_right (List.mem_cons_of_mem _)
    · rcases List.mem_cons.1 member with rfl | inside
      · exact .inr List.mem_cons_self
      · exact (ih inside).imp_right (List.mem_cons_of_mem _)

/-- To write an entry brings no second one to a location. -/
theorem nodup_putIn {entries : List (Location × Entry)} (unique : (entries.map Prod.fst).Nodup)
    (l : Location) (e : Entry) : ((putIn l e entries).map Prod.fst).Nodup := by
  induction entries with
  | nil => exact List.nodup_singleton l
  | cons first rest ih =>
    obtain ⟨fresh, behind⟩ := List.nodup_cons.1 unique
    simp only [putIn]
    split
    next here =>
      subst here
      exact List.nodup_cons.2 ⟨fresh, behind⟩
    next other =>
      refine List.nodup_cons.2 ⟨fun member => ?_, ih behind⟩
      obtain ⟨x, inside, same⟩ := List.mem_map.1 member
      rcases mem_putIn inside with rfl | old
      · exact other same.symm
      · exact fresh (same ▸ List.mem_map_of_mem old)

theorem linkCount_eq_zero_iff :
    d.linkCount = 0 ↔ ∀ x ∈ d.entries, ∀ target, x.2 ≠ .link target := by
  rw [linkCount, List.length_eq_zero_iff, List.filter_eq_nil_iff]
  refine forall₂_congr fun x _ => ?_
  cases x.2 <;> simp

/-! ## Single steps -/

/-- An entry is written where a path leads, but over no directory. -/
theorem remains_put (tree : Tree d) (found : d.locate aim p = .ok spot)
    (flat : spot.entry? ≠ some .directory) (solid : ∀ target, e ≠ .link target) :
    Remains d (d.put spot.location e) := by
  obtain ⟨walkable, leads⟩ := locate_eq_ok_iff.1 found
  obtain ⟨there, parent⟩ := tree.stands_of_locate found
  have below := leads.location_ne_nil flat
  rw [← there] at flat
  -- No directory gives way, so what stood in one still does.
  have kept : ∀ k, d.entry? k = some .directory →
      Disk.entry? (d.put spot.location e) k = some .directory := by
    intro k directory
    rw [entry?_put_of_ne d, directory]
    rintro rfl
    exact flat directory
  refine ⟨⟨tree.rooted, kept _ tree.home, nodup_putIn tree.unique _ _, fun x member => ?_,
    fun x member => ?_, ?_⟩, tree.keeps rfl kept⟩
  · rcases mem_putIn member with rfl | old
    · intro name inside
      have real := tree.realNames_of_locate found
      exact ⟨isName_of_mem_realNames d p name (real ▸ inside),
        tree.passable_realNames walkable.1 name (real ▸ inside)⟩
    · exact tree.named x old
  · rcases mem_putIn member with rfl | old
    · exact ⟨below, kept _ parent⟩
    · exact ⟨(tree.inside x old).1, kept _ (tree.inside x old).2⟩
  · refine linkCount_eq_zero_iff.2 fun x member => ?_
    rcases mem_putIn member with rfl | old
    · exact solid
    · exact linkCount_eq_zero_iff.1 tree.linkless x old

/-- What is no directory is taken away. -/
theorem remains_erase (tree : Tree d) (flat : d.entry? l ≠ some .directory) :
    Remains d (d.erase l) := by
  have below : l ≠ [] := by
    rintro rfl
    exact flat rfl
  have kept : ∀ k, d.entry? k = some .directory →
      Disk.entry? (d.erase l) k = some .directory := by
    intro k directory
    rw [entry?_erase d below, if_neg, directory]
    rintro rfl
    exact flat directory
  have old : ∀ x ∈ (d.erase l).entries, x ∈ d.entries := fun x => List.mem_of_mem_filter
  refine ⟨⟨tree.rooted, kept _ tree.home, ?_, fun x member => tree.named x (old x member),
    fun x member => ?_, ?_⟩, tree.keeps rfl kept⟩
  · exact tree.unique.sublist (List.filter_sublist.map Prod.fst)
  · exact ⟨(tree.inside x (old x member)).1, kept _ (tree.inside x (old x member)).2⟩
  · exact linkCount_eq_zero_iff.2 fun x member =>
      linkCount_eq_zero_iff.1 tree.linkless x (old x member)

/-! ## Changes -/

theorem remains_lands (tree : Tree d) (lands : Lands d p l) (bytes : Bytes) :
    Remains d (d.put l (.file bytes)) := by
  obtain ⟨spot, found, writable, rfl⟩ := lands
  exact remains_put tree found (writable_ne_directory writable) nofun

theorem remains_makeDirectory (tree : Tree d) (p : Path) : Remains d (makeDirectory p d).2 := by
  unfold makeDirectory
  split
  next l found => exact remains_put (e := .directory) tree found nofun nofun
  · split <;> exact .refl tree
  · split <;> exact .refl tree

theorem remains_makeDirectories (tree : Tree d) (p : Path) :
    Remains d (makeDirectories p d).2 := by
  fun_induction makeDirectories p d with
  | case1 p => exact remains_makeDirectory tree p
  | case2 p => exact remains_makeDirectory tree p
  -- The directories above were made first.
  | case3 p head name named below made path here above ih => rwa [above] at ih
  | case4 p head name named below made path other above ih =>
    rw [above] at ih
    exact ih.trans (remains_makeDirectory ih.tree p)
  | case5 p head name named below e made above other ih => rwa [above] at ih
  | case6 p head name named below made above here ih => rwa [above] at ih
  | case7 p head name named below made above other ih =>
    rw [above] at ih
    exact ih.trans (remains_makeDirectory ih.tree p)

theorem remains_writePieces (tree : Tree d) (p : Path) (pieces : List Text) :
    Remains d (writePieces p pieces d).2 := by
  rcases writePieces_cases p pieces d with ⟨e, _, failed⟩ | ⟨l, lands, done⟩
  · rw [failed]
    exact .refl tree
  · rw [done]
    exact remains_lands tree lands _

theorem remains_remove (tree : Tree d) (p : Path) : Remains d (remove p d).2 := by
  unfold remove
  split
  · exact .refl tree
  next l e flat found =>
    refine remains_erase tree fun directory => ?_
    have there := (tree.stands_of_locate found).1
    rw [Spot.location, directory] at there
    exact flat (Option.some.inj there).symm
  · exact .refl tree
  · exact .refl tree

end Arabize.Disk
