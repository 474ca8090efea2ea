import Arabize.Proofs.Disk.Directories
import Arabize.Proofs.Disk.RealPath
import Arabize.Proofs.Lockstep

/-! # One disk beside another

Two disks that hold the same outside some locations (`Beside`) cannot be told apart by a path
that leads over none of these.  Whatever is asked of the two by such a path has the same
answer, and whatever is changed by it is changed on both, so the two stay beside each other.

What a path leads over is read off a third disk, whose links the two have: links are never
changed while files are written, so this can be the disk as it was before.
-/

namespace Arabize.Disk

/-- Two disks that hold the same outside some locations, with the links of a disk there. -/
structure Beside (away : Location → Prop) (d x y : Disk) : Prop where
  cwdOne : x.cwd = d.cwd
  cwdOther : y.cwd = d.cwd
  entry : ∀ l, ¬ away l → x.entry? l = y.entry? l
  link : ∀ l, ¬ away l → x.link? l = d.link? l

/-- A path that leads over none of some locations. -/
def Avoids (away : Location → Prop) (d : Disk) (p : Path) : Prop :=
  ∀ l, Crosses d (d.origin p) (Path.components p) l → ¬ away l

variable {away : Location → Prop} {d x y : Disk} {p : Path}

theorem Avoids.parent (avoids : Avoids away d p) (named : (Path.parentAndName p).2 ≠ []) :
    Avoids away d (Path.parentAndName p).1 := by
  intro l crosses
  rcases Path.parent_cases named with slashes | ⟨rest, whole, _⟩
  · exact absurd crosses (not_crosses_of_isEmpty ((Text.splitOn_isEmpty_iff _ _).2 slashes))
  · by_cases empty : (Path.parentAndName p).1 = []
    · rw [empty] at crosses
      exact absurd crosses (not_crosses_of_isEmpty rfl)
    · refine avoids l ?_
      have absolute := Path.isAbsolute_append empty (Path.slash :: rest)
      rw [origin, ← absolute, ← whole] at crosses
      rw [whole, Path.components, Text.splitOn_append, ← whole]
      exact crosses.append

/-- On a disk without links a path leads over its own names. -/
theorem avoids_of_linkCount (free : d.linkCount = 0)
    (outside : ∀ l ∈ visited (d.origin p) (Path.components p), ¬ away l) : Avoids away d p :=
  fun l crosses => outside l (crosses.visited (link?_of_linkCount free))

namespace Beside

variable (beside : Beside away d x y) (avoids : Avoids away d p)

include beside

/-! ## Looking -/

include avoids

/-- The path leads over the same, and there the two hold the same. -/
theorem not_away {l : Location} (crosses : Crosses x (x.origin p) (Path.components p) l) :
    ¬ away l := by
  rw [origin_congr beside.cwdOne] at crosses
  exact avoids l (crosses.of_link? fun k onWay => (beside.link k (avoids k onWay)).symm)

theorem find (aim : Aim) : x.find aim p = y.find aim p := by
  unfold Disk.find
  rw [← origin_congr (beside.cwdOne.trans beside.cwdOther.symm) p,
    walk_congr fun l crosses => beside.entry l (beside.not_away avoids crosses)]

theorem locate (aim : Aim) : x.locate aim p = y.locate aim p := by
  unfold Disk.locate
  rw [beside.find avoids aim]

theorem isDirectory : x.isDirectory p = y.isDirectory p := by
  unfold Disk.isDirectory
  rw [beside.find avoids .target]

theorem hasPath : x.hasPath p = y.hasPath p := by
  unfold Disk.hasPath
  rw [beside.find avoids .target]

theorem readBytes : x.readBytes p = y.readBytes p := by
  unfold Disk.readBytes
  rw [beside.locate avoids .target]

theorem readText : x.readText p = y.readText p := by
  unfold Disk.readText
  rw [beside.readBytes avoids]

theorem lands (l : Location) : Lands x p l ↔ Lands y p l := by
  unfold Lands
  rw [beside.locate avoids .creation]

theorem realNames : x.realNames p = y.realNames p :=
  realNames_congr (beside.cwdOther.trans beside.cwdOne.symm) fun l crosses =>
    link?_congr (beside.entry l (beside.not_away avoids crosses))

theorem realPathOf : x.realPathOf p = y.realPathOf p := by
  unfold Disk.realPathOf realPath
  rw [beside.realNames avoids]

omit avoids

/-! ## Changing -/

/-- The same written on both where no link stands, and no link itself. -/
theorem put {l : Location} (e : Entry) (notLink : ∀ target, x.entry? l ≠ some (.link target))
    (noLink : ∀ target, e ≠ .link target) : Beside away d (x.put l e) (y.put l e) := by
  refine ⟨beside.cwdOne, beside.cwdOther, fun k same => ?_, fun k same => ?_⟩
  · by_cases here : k = l
    · subst here
      by_cases root : k = []
      · rw [root, entry?_nil, entry?_nil]
      · rw [entry?_put_self x root, entry?_put_self y root]
    · rw [entry?_put_of_ne x here, entry?_put_of_ne y here]
      exact beside.entry k same
  · rw [← beside.link k same]
    by_cases here : k = l
    · subst here
      have before := link?_eq_none_of_entry rfl notLink
      rw [before]
      refine link?_eq_none_of_entry rfl fun target there => ?_
      by_cases root : k = []
      · rw [root, entry?_nil] at there
        cases there
      · rw [entry?_put_self x root] at there
        exact noLink target (Option.some.inj there)
    · rw [link?_congr (entry?_put_of_ne x here e)]

end Beside

variable (avoids : Avoids away d p)

include avoids

theorem createFile_lockstep : Lockstep (Beside away d) (createFile p).run (createFile p).run := by
  intro x y beside
  simp only [ExceptT.run, createFile, ← beside.locate avoids .creation]
  cases found : x.locate .creation p with
  | error e => exact ⟨rfl, beside⟩
  | ok spot =>
    have leads := (locate_eq_ok_iff.1 found).2
    cases spot with
    | free l => exact ⟨rfl, beside.put _ (by simp [leads.entry_free]) (by simp)⟩
    | there l e =>
      cases e with
      | file bytes => exact ⟨rfl, beside.put _ (by simp [leads.entry_file]) (by simp)⟩
      | directory => exact ⟨rfl, beside⟩
      | link target => exact ⟨rfl, beside⟩

theorem writePieces_lockstep (pieces : List Text) :
    Lockstep (Beside away d) (writePieces p pieces).run (writePieces p pieces).run := by
  intro x y beside
  simp only [ExceptT.run]
  rcases writePieces_cases p pieces x with ⟨e, failed, done⟩ | ⟨l, lands, done⟩
  · have alike := (createFile_lockstep avoids x y beside).1
    simp only [ExceptT.run, failed] at alike
    rcases writePieces_cases p pieces y with ⟨f, also, there⟩ | ⟨k, also, _⟩
    · rw [also] at alike
      cases alike
      rw [done, there]
      exact ⟨rfl, beside⟩
    · rw [also.createFile] at alike
      cases alike
  · have alike := (beside.lands avoids l).1 lands
    rcases writePieces_cases p pieces y with ⟨f, failed, _⟩ | ⟨k, also, there⟩
    · rw [alike.createFile] at failed
      cases failed
    · cases alike.unique also
      rw [done, there]
      exact ⟨rfl, beside.put _ (writable_ne_link lands.writable) (by simp)⟩

theorem makeDirectory_lockstep :
    Lockstep (Beside away d) (makeDirectory p).run (makeDirectory p).run := by
  intro x y beside
  simp only [ExceptT.run, makeDirectory, ← beside.locate avoids .entry,
    ← beside.isDirectory avoids]
  cases found : x.locate .entry p with
  | error e =>
    dsimp only
    split <;> exact ⟨rfl, beside⟩
  | ok spot =>
    cases spot with
    | free l =>
      have leads := (locate_eq_ok_iff.1 found).2
      exact ⟨rfl, beside.put _ (by simp [leads.entry_free]) (by simp)⟩
    | there l e =>
      dsimp only
      split <;> exact ⟨rfl, beside⟩

theorem afterParent_lockstep (made : Except AccessError Unit) :
    Lockstep (Beside away d) (afterParent p made).run (afterParent p made).run := by
  intro x y beside
  have makes := makeDirectory_lockstep avoids x y beside
  simp only [ExceptT.run] at makes ⊢
  unfold afterParent
  split
  · split
    · exact ⟨rfl, beside⟩
    · exact makes
  · exact ⟨rfl, beside⟩
  · split
    · exact ⟨rfl, beside⟩
    · exact makes

omit avoids in
theorem makeDirectories_lockstep (p : Path) (avoids : Avoids away d p) :
    Lockstep (Beside away d) (makeDirectories p).run (makeDirectories p).run := by
  intro x y beside
  simp only [ExceptT.run]
  have makes := makeDirectory_lockstep avoids x y beside
  by_cases unnamed : (Path.parentAndName p).2 = []
  · rw [makeDirectories_of_unnamed unnamed, makeDirectories_of_unnamed unnamed]
    exact makes
  · have same := beside.hasPath (avoids.parent unnamed)
    by_cases there : (Path.parentAndName p).1 = [] ∨ x.hasPath (Path.parentAndName p).1 = true
    · rw [makeDirectories_of_there there, makeDirectories_of_there (same ▸ there)]
      exact makes
    · -- The directories above are made first.
      obtain ⟨answers, disks⟩ := makeDirectories_lockstep _ (avoids.parent unnamed) x y beside
      simp only [ExceptT.run] at answers disks
      rw [makeDirectories_of_below unnamed there, makeDirectories_of_below unnamed (same ▸ there),
        ← answers]
      exact afterParent_lockstep avoids _ _ _ disks
termination_by p.length
decreasing_by
  have bound := Path.parentAndName_length p
  have : 0 < (Path.parentAndName p).2.length := List.length_pos_iff.2 unnamed
  omega

end Arabize.Disk
