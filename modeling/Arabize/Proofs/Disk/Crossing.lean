import Arabize.Proofs.Disk.Walk

/-! # What a path leads over

The entries that are looked up along a path are those it leads over: each name on the way,
and those on the way along the target of each link.  Where nothing is, or a file, a
resolution goes on by the names alone, and so does the way here.

Two disks that hold the same wherever a path leads over are the same to that path.
-/

namespace Arabize.Disk

/-- The locations that the way from a directory along components leads over. -/
inductive Crosses (d : Disk) : Location → List Text → Location → Prop
  | skip {loc name more l} : name = [] ∨ name = Path.here → Crosses d loc more l →
      Crosses d loc (name :: more) l
  | up {loc more l} : Crosses d loc.dropLast more l → Crosses d loc (Path.up :: more) l
  | here {loc name more} : ¬ (name = [] ∨ name = Path.here) → name ≠ Path.up →
      Crosses d loc (name :: more) (loc ++ [name])
  | past {loc name more l} : ¬ (name = [] ∨ name = Path.here) → name ≠ Path.up →
      d.link? (loc ++ [name]) = none → Crosses d (loc ++ [name]) more l →
      Crosses d loc (name :: more) l
  | along {loc name more target l} : ¬ (name = [] ∨ name = Path.here) → name ≠ Path.up →
      d.link? (loc ++ [name]) = some target →
      Crosses d (base target loc) (Path.components target ++ more) l →
      Crosses d loc (name :: more) l

variable {d c : Disk} {aim : Aim} {links : Nat} {loc l : Location} {rest : List Text}

theorem link?_eq_none_of_entry {e : Option Entry} (there : d.entry? l = e)
    (other : ∀ target, e ≠ some (.link target)) : d.link? l = none := by
  cases known : d.link? l with
  | none => rfl
  | some target => exact absurd (there.symm.trans (link?_eq_some_iff.1 known)) (other target)

theorem not_crosses_of_isEmpty (empty : rest.all List.isEmpty = true) : ¬ Crosses d loc rest l := by
  intro crosses
  induction crosses with
  | skip _ _ ih =>
    rw [List.all_cons, Bool.and_eq_true] at empty
    exact ih empty.2
  | up =>
    rw [List.all_cons, Bool.and_eq_true] at empty
    exact absurd (List.isEmpty_iff.1 empty.1) (by decide)
  | here named | past named | along named =>
    rw [List.all_cons, Bool.and_eq_true] at empty
    exact named (.inl (List.isEmpty_iff.1 empty.1))

/-- A longer way leads over what its beginning leads over. -/
theorem Crosses.append {more : List Text} (crosses : Crosses d loc rest l) :
    Crosses d loc (rest ++ more) l := by
  induction crosses with
  | skip skipped _ ih => exact .skip skipped ih
  | up _ ih => exact .up ih
  | here named other => exact .here named other
  | past named other free _ ih => exact .past named other free ih
  | along named other link _ ih =>
    rw [List.append_assoc] at ih
    exact .along named other link ih

/-- The locations that names lead over where no links are. -/
def visited (loc : Location) : List Text → List Location
  | [] => []
  | name :: more =>
    if name = [] ∨ name = Path.here then visited loc more
    else if name = Path.up then visited loc.dropLast more
    else (loc ++ [name]) :: visited (loc ++ [name]) more

theorem Crosses.visited (free : ∀ l, d.link? l = none) (crosses : Crosses d loc rest l) :
    l ∈ visited loc rest := by
  induction crosses with
  | skip skipped _ ih => rwa [Disk.visited, if_pos skipped]
  | up _ ih => rwa [Disk.visited, if_neg (by decide), if_pos rfl]
  | here named other =>
    rw [Disk.visited, if_neg named, if_neg other]
    exact List.mem_cons_self
  | past named other _ _ ih =>
    rw [Disk.visited, if_neg named, if_neg other]
    exact List.mem_cons_of_mem _ ih
  | along _ _ there =>
    rw [free] at there
    cases there

/-- A way leads over the same if it only leads over links that are the same. -/
theorem Crosses.of_link? (crosses : Crosses c loc rest l)
    (same : ∀ k, Crosses d loc rest k → d.link? k = c.link? k) : Crosses d loc rest l := by
  induction crosses with
  | skip skipped _ ih => exact .skip skipped (ih fun k onWay => same k (.skip skipped onWay))
  | up _ ih => exact .up (ih fun k onWay => same k (.up onWay))
  | here named other => exact .here named other
  | past named other free _ ih =>
    have link := (same _ (.here named other)).trans free
    exact .past named other link (ih fun k onWay => same k (.past named other link onWay))
  | along named other there _ ih =>
    have link := (same _ (.here named other)).trans there
    exact .along named other link (ih fun k onWay => same k (.along named other link onWay))

/-- A walk only looks up what it leads over. -/
theorem walk_congr (same : ∀ l, Crosses d loc rest l → d.entry? l = c.entry? l) :
    d.walk aim links loc rest = c.walk aim links loc rest := by
  fun_induction d.walk aim links loc rest with
  | case1 => rw [walk]
  | case2 links loc name more skipped ih =>
    rw [walk_skip skipped]
    exact ih fun l onWay => same l (.skip skipped onWay)
  | case3 links loc more named ih =>
    rw [walk_up]
    exact ih fun l onWay => same l (.up onWay)
  | case4 links loc name more named other made => rw [walk_made named other made]
  | case5 links loc name more named other made long => rw [walk_long named other made long]
  -- From here on, what stands under the name decides, and it is the same on both disks.
  | case6 links loc name more named other made short next absent ends =>
    have there := (same _ (.here named other)).symm.trans absent
    rw [walk_free ⟨named, other, made, short⟩ there, if_pos ends]
  | case7 links loc name more named other made short next absent behind =>
    have there := (same _ (.here named other)).symm.trans absent
    rw [walk_free ⟨named, other, made, short⟩ there, if_neg behind]
  | case8 links loc name more named other made short next present ih =>
    have there := (same _ (.here named other)).symm.trans present
    rw [walk_directory ⟨named, other, made, short⟩ there]
    have free := link?_eq_none_of_entry present (by simp)
    exact ih fun l onWay => same l (.past named other free onWay)
  | case9 links loc name named other short next bytes present made =>
    have there := (same _ (.here named other)).symm.trans present
    rw [walk_file ⟨named, other, made, short⟩ there, if_pos rfl]
  | case10 links loc name more named other made short next bytes present behind =>
    have there := (same _ (.here named other)).symm.trans present
    rw [walk_file ⟨named, other, made, short⟩ there, if_neg behind]
  | case11 links loc name more named other made short next target present own =>
    have there := (same _ (.here named other)).symm.trans present
    obtain ⟨rfl, own⟩ := own
    rw [walk_link ⟨named, other, made, short⟩ own there]
  | case12 links loc name more named other made short next target present notOwn removed =>
    have there := (same _ (.here named other)).symm.trans present
    obtain ⟨rfl, empty⟩ := removed
    rw [walk_slashed ⟨named, other, made, short⟩ (fun last => notOwn ⟨last, .inr rfl⟩) empty there]
  | case13 loc name more named other made short next target present notOwn notRemoved =>
    have there := (same _ (.here named other)).symm.trans present
    rw [walk_exhausted ⟨named, other, made, short⟩ notOwn notRemoved there]
  | case14 loc name more named other made short next target present notOwn notRemoved k ih =>
    have there := (same _ (.here named other)).symm.trans present
    rw [walk_along ⟨named, other, made, short⟩ notOwn notRemoved there]
    have link := link?_eq_some_iff.2 present
    exact ih fun l onWay => same l (.along named other link onWay)

end Arabize.Disk
