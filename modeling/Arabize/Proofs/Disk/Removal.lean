import Arabize.Proofs.Disk.Change

/-! # What is gone

A path names what it leads to, and what it leads to differs with what is to be done there.  Once
the entry that is to be removed is away, the path leads to nothing, whatever is to be done
(`gone_of_remove`).  A removal that finds nothing, and is not refused, says the same
(`gone_of_absent`): where there is something else, a slash behind it is at fault.

Taking a file away changes no way but those to the file: its path leads to where it was
(`readBytes_erase`), and any other file is where it was (`locate_file_erase_iff`).
-/

namespace Arabize.Disk

variable {d c : Disk} {aim : Aim} {links : Nat} {loc l k : Location} {rest : List Text} {e : Entry}
  {p : Path}

/-- No path leads to anything: nothing can be read, written over or removed there. -/
def Gone (d : Disk) (p : Path) : Prop := ∀ aim l e, d.locate aim p ≠ .ok (.there l e)

/-- A name that is looked up for a removal is looked up whatever is to be done, unless a file is to
    be made behind a slash. -/
theorem Named.or_made {name : Text} {more : List Text} (named : Named .removal name more)
    (aim : Aim) : Named aim name more ∨
      ∀ (c : Disk) (links : Nat) (loc : Location),
        c.walk aim links loc (name :: more) = .error .isDirectory := by
  by_cases made : aim = .creation ∧ more ≠ [] ∧ more.all List.isEmpty = true
  · refine .inr fun c links loc => ?_
    rw [walk_made named.1 named.2.1 made]
  · exact .inl ⟨named.1, named.2.1, made, named.2.2.2⟩

/-- Once the entry that a path has removed is away, a walk finds nothing there. -/
theorem Leads.gone (leads : Leads d .removal links loc rest (.there k e)) (flat : e ≠ .directory)
    (away : c.entry? k = none) (same : ∀ l, l ≠ k → c.entry? l = d.entry? l) (aim : Aim)
    (l : Location) (f : Entry) : c.walk aim links loc rest ≠ .ok (.there l f) := by
  have present : d.entry? k = some e :=
    leads.entry?.resolve_left (by simpa [Spot.entry?] using flat)
  -- Where the entry stood, a walk ends without anything.
  have ends : ∀ {links loc name more}, Named aim name more → loc ++ [name] = k →
      c.walk aim links loc (name :: more) ≠ .ok (.there l f) := by
    rintro links loc name more named rfl
    rw [walk_free named away]
    split <;> simp
  generalize isThere : Spot.there k e = spot at leads
  induction leads with
  | done =>
    cases isThere
    exact absurd rfl flat
  | free => cases isThere
  | skip skipped _ ih =>
    rw [walk_skip skipped]
    exact ih isThere
  | up _ ih =>
    rw [walk_up]
    exact ih isThere
  | @directory links loc name more spot named isDirectory _ ih =>
    have other : loc ++ [name] ≠ k := by
      rintro rfl
      rw [isDirectory] at present
      exact flat (Option.some.inj present).symm
    rcases named.or_made aim with named | made
    · rw [walk_directory named ((same _ other).trans isDirectory)]
      exact ih isThere
    · simp [made]
  | file named _ | link named _ _ =>
    cases isThere
    rcases named.or_made aim with named | made
    · exact ends named rfl
    · simp [made]
  | @along links loc name more target spot named isLink notOwn notRemoved _ ih =>
    have goesOn : ¬ more.all List.isEmpty = true := fun empty => notRemoved ⟨rfl, empty⟩
    have notLast : more ≠ [] := by
      rintro rfl
      exact goesOn rfl
    rcases named.or_made aim with named | made
    · by_cases here : loc ++ [name] = k
      -- A link that was followed on the way may be the one that is away.
      · exact ends named here
      · rw [walk_along named (by simp [notLast]) (by simp [goesOn]) ((same _ here).trans isLink)]
        exact ih isThere
    · simp [made]

/-- Where a walk finds something, something is removed, or a slash behind a link is at fault. -/
theorem Leads.removal_or (leads : Leads d aim links loc rest (.there l e)) :
    (∃ k f, Leads d .removal links loc rest (.there k f)) ∨
      d.walk .removal links loc rest = .error .notDirectory := by
  have weaker : ∀ {name more}, Named aim name more → Named .removal name more :=
    fun named => named.of_ne_creation (by decide)
  generalize isThere : Spot.there l e = spot at leads
  induction leads with
  | done => exact .inl ⟨_, _, .done⟩
  | free => cases isThere
  | skip skipped _ ih =>
    rw [walk_skip skipped]
    refine (ih isThere).imp_left ?_
    rintro ⟨k, f, found⟩
    exact ⟨k, f, .skip skipped found⟩
  | up _ ih =>
    rw [walk_up]
    refine (ih isThere).imp_left ?_
    rintro ⟨k, f, found⟩
    exact ⟨k, f, .up found⟩
  | directory named isDirectory _ ih =>
    rw [walk_directory (weaker named) isDirectory]
    refine (ih isThere).imp_left ?_
    rintro ⟨k, f, found⟩
    exact ⟨k, f, .directory (weaker named) isDirectory found⟩
  | file named isFile => exact .inl ⟨_, _, .file (weaker named) isFile⟩
  | link named isLink _ => exact .inl ⟨_, _, .link (weaker named) isLink (.inr rfl)⟩
  | @along links loc name more target spot named isLink _ _ _ ih =>
    by_cases last : more = []
    · subst last
      exact .inl ⟨_, _, .link (weaker named) isLink (.inr rfl)⟩
    · by_cases empty : more.all List.isEmpty = true
      · exact .inr (walk_slashed (weaker named) last empty isLink)
      · have notOwn : ¬ (more = [] ∧ (Aim.removal = .entry ∨ Aim.removal = .removal)) :=
          fun own => last own.1
        have notRemoved : ¬ (Aim.removal = .removal ∧ more.all List.isEmpty = true) :=
          fun removed => empty removed.2
        rw [walk_along (weaker named) notOwn notRemoved isLink]
        refine (ih isThere).imp_left ?_
        rintro ⟨k, f, found⟩
        exact ⟨k, f, .along (weaker named) isLink notOwn notRemoved found⟩

theorem path_of_locate {why : Refusal} {q : Path}
    (failed : d.locate aim p = .error (.refused why q)) : q = p := by
  unfold locate at failed
  split at failed
  next e stuck =>
    cases failed
    cases passPath_error stuck
  · split at failed
    · cases failed
    · cases failed
      rfl

/-- What was removed by a path is gone. -/
theorem gone_of_remove (flat : e ≠ .directory) (found : d.locate .removal p = .ok (.there k e)) :
    Gone (d.erase k) p := by
  intro aim l f still
  have named := ne_nil_of_locate flat found
  obtain ⟨_, leads⟩ := locate_eq_ok_iff.1 found
  obtain ⟨_, also⟩ := locate_eq_ok_iff.1 still
  have away : Disk.entry? (d.erase k) k = none := by rw [entry?_erase d named, if_pos rfl]
  have same : ∀ l, l ≠ k → Disk.entry? (d.erase k) l = d.entry? l := fun l other => by
    rw [entry?_erase d named, if_neg other]
  exact leads.gone flat away same aim l f (walk_eq_ok_iff.2 also)

/-- Where a path has nothing removed, and that is not refused, there is nothing. -/
theorem gone_of_absent (nothing : ∀ k f, d.locate .removal p ≠ .ok (.there k f))
    (allowed : ∀ why, why ≠ .notFound → d.locate .removal p ≠ .error (.refused why p)) :
    Gone d p := by
  intro aim l e found
  obtain ⟨walkable, leads⟩ := locate_eq_ok_iff.1 found
  rcases leads.removal_or with ⟨k, f, removed⟩ | slash
  · exact nothing k f (locate_eq_ok_iff.2 ⟨walkable, removed⟩)
  · refine allowed .notDirectory (by decide) ?_
    rw [locate, (passPath_eq_ok_iff p).2 walkable.1]
    simp only [find, if_neg walkable.2.1, if_neg walkable.2.2, slash]

/-! ## Files that are away -/

section Erased

variable {bytes : Bytes}

/-- Directories and links stay where they are when a file is taken away. -/
theorem keeps_erase (present : d.entry? k = some (.file bytes)) (named : k ≠ []) :
    Keeps d (d.erase k) := by
  refine ⟨rfl, fun {l} there => ?_, fun {l target} there => ?_⟩
  all_goals
    rw [entry?_erase d named, if_neg, there]
    rintro rfl
    rw [present] at there
    cases there

theorem keeps_of_erase (named : k ≠ []) : Keeps (d.erase k) d := by
  refine ⟨rfl, fun {l} there => ?_, fun {l target} there => ?_⟩
  all_goals
    rw [entry?_erase d named] at there
    split at there
    · cases there
    · exact there

/-- A way to a file that was taken away ends where the file was. -/
theorem Leads.erased (kept : Keeps d c) (leads : Leads d aim links loc rest (.there l (.file bytes)))
    (away : c.entry? l = none) : Leads c aim links loc rest (.free l) := by
  -- A file is only met at the last step; up to there the way is the same.
  generalize same : Spot.there l (.file bytes) = spot at leads
  induction leads with
  | done | free | link => cases same
  | skip skipped _ ih => exact .skip skipped (ih same)
  | up _ ih => exact .up (ih same)
  | directory named present _ ih => exact .directory named (kept.directory present) (ih same)
  | file named present =>
    cases same
    exact .free named away rfl
  | along named present notOwn notRemoved _ ih =>
    exact .along named (kept.link present) notOwn notRemoved (ih same)

/-- The file that a path leads to is not found once it was taken away. -/
theorem readBytes_erase (found : d.locate .target p = .ok (.there l (.file bytes))) :
    (d.erase l).readBytes p = .error (.refused .notFound p) := by
  have named := ne_nil_of_locate (by simp) found
  obtain ⟨walkable, leads⟩ := locate_eq_ok_iff.1 found
  have away : Disk.entry? (d.erase l) l = none := by rw [entry?_erase d named, if_pos rfl]
  have nothing := locate_eq_ok_iff.2
    ⟨walkable, leads.erased (keeps_erase leads.entry_file named) away⟩
  simp only [readBytes, show (d.erase l).locate .target p = .ok (.free l) from nothing]

/-- Any other file is still found where it was. -/
theorem locate_file_erase_iff {more : Bytes} (present : d.entry? k = some (.file bytes))
    (named : k ≠ []) (other : l ≠ k) :
    (d.erase k).locate aim p = .ok (.there l (.file more)) ↔
      d.locate aim p = .ok (.there l (.file more)) := by
  have same : Disk.entry? (d.erase k) l = d.entry? l := by
    rw [entry?_erase d named, if_neg other]
  rw [locate_eq_ok_iff, locate_eq_ok_iff]
  exact and_congr_right fun _ =>
    ⟨fun leads => leads.of_keeps (keeps_of_erase named) same.symm,
      fun leads => leads.of_keeps (keeps_erase present named) same⟩

end Erased

end Arabize.Disk
