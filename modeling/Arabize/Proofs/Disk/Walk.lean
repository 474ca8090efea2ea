import Arabize.Proofs.Disk.Entries

/-! # What a walk finds

A walk that comes to an end has gone through directories and along links only, up to the
spot it ends at.  `Leads` lists the steps of such a walk, and `walk_eq_ok_iff` says that
nothing else is one.

Whatever is said of walks on a changed disk follows from the steps: a walk only depends on
the directories and links it goes through, and on what stands where it ends.
-/

namespace Arabize.Disk

/-! ## Steps -/

/-- Whether a component, with others behind it, is a name that is looked up. -/
def Named (aim : Aim) (name : Text) (more : List Text) : Prop :=
  ¬ (name = [] ∨ name = Path.here) ∧ name ≠ Path.up ∧
    ¬ (aim = .creation ∧ more ≠ [] ∧ more.all List.isEmpty = true) ∧ ¬ maxName < Path.size name

instance (aim : Aim) (name : Text) (more : List Text) : Decidable (Named aim name more) :=
  inferInstanceAs (Decidable (_ ∧ _))

/-- Where the way goes on that a link points. -/
def base (target : Path) (loc : Location) : Location := if Path.isAbsolute target then [] else loc

/-- A way from a directory along components to a spot, with so many links still to be
    followed. -/
inductive Leads (d : Disk) (aim : Aim) : Nat → Location → List Text → Spot → Prop
  | done {links loc} : Leads d aim links loc [] (.there loc .directory)
  | skip {links loc name more spot} : name = [] ∨ name = Path.here →
      Leads d aim links loc more spot → Leads d aim links loc (name :: more) spot
  | up {links loc more spot} :
      Leads d aim links loc.dropLast more spot → Leads d aim links loc (Path.up :: more) spot
  | free {links loc name more} : Named aim name more → d.entry? (loc ++ [name]) = none →
      more.all List.isEmpty = true → Leads d aim links loc (name :: more) (.free (loc ++ [name]))
  | directory {links loc name more spot} : Named aim name more →
      d.entry? (loc ++ [name]) = some .directory → Leads d aim links (loc ++ [name]) more spot →
      Leads d aim links loc (name :: more) spot
  | file {links loc name bytes} : Named aim name [] →
      d.entry? (loc ++ [name]) = some (.file bytes) →
      Leads d aim links loc [name] (.there (loc ++ [name]) (.file bytes))
  | link {links loc name target} : Named aim name [] →
      d.entry? (loc ++ [name]) = some (.link target) → aim = .entry ∨ aim = .removal →
      Leads d aim links loc [name] (.there (loc ++ [name]) (.link target))
  | along {links loc name more target spot} : Named aim name more →
      d.entry? (loc ++ [name]) = some (.link target) →
      ¬ (more = [] ∧ (aim = .entry ∨ aim = .removal)) →
      ¬ (aim = .removal ∧ more.all List.isEmpty = true) →
      Leads d aim links (base target loc) (Path.components target ++ more) spot →
      Leads d aim (links + 1) loc (name :: more) spot

variable {d c : Disk} {aim : Aim} {links : Nat} {loc l : Location} {rest : List Text} {spot : Spot}

section Named

variable {name : Text} {more : List Text} {target : Path} {bytes : Bytes}

/-- Unless a file is to be made, it does not matter what is behind a name that is looked up. -/
theorem Named.of_ne_creation {other : Aim} {behind : List Text} (named : Named aim name more)
    (notMade : other ≠ .creation) : Named other name behind :=
  ⟨named.1, named.2.1, fun made => notMade made.1, named.2.2.2⟩

theorem walk_skip (skipped : name = [] ∨ name = Path.here) :
    d.walk aim links loc (name :: more) = d.walk aim links loc more := by
  rw [walk, if_pos skipped]

theorem walk_up : d.walk aim links loc (Path.up :: more) = d.walk aim links loc.dropLast more := by
  rw [walk, if_neg (by decide), if_pos rfl]

/-- A file is not made under a name with slashes behind it. -/
theorem walk_made (named : ¬ (name = [] ∨ name = Path.here)) (notUp : name ≠ Path.up)
    (made : aim = .creation ∧ more ≠ [] ∧ more.all List.isEmpty = true) :
    d.walk aim links loc (name :: more) = .error .isDirectory := by
  rw [walk, if_neg named, if_neg notUp, if_pos made]

theorem walk_long (named : ¬ (name = [] ∨ name = Path.here)) (notUp : name ≠ Path.up)
    (notMade : ¬ (aim = .creation ∧ more ≠ [] ∧ more.all List.isEmpty = true))
    (long : maxName < Path.size name) :
    d.walk aim links loc (name :: more) = .error .nameTooLong := by
  rw [walk, if_neg named, if_neg notUp, if_neg notMade, if_pos long]

theorem walk_free (named : Named aim name more) (absent : d.entry? (loc ++ [name]) = none) :
    d.walk aim links loc (name :: more) =
      if more.all List.isEmpty then .ok (.free (loc ++ [name])) else .error .notFound := by
  rw [walk, if_neg named.1, if_neg named.2.1, if_neg named.2.2.1, if_neg named.2.2.2]
  simp only [absent]

theorem walk_directory (named : Named aim name more)
    (present : d.entry? (loc ++ [name]) = some .directory) :
    d.walk aim links loc (name :: more) = d.walk aim links (loc ++ [name]) more := by
  rw [walk, if_neg named.1, if_neg named.2.1, if_neg named.2.2.1, if_neg named.2.2.2]
  simp only [present]

theorem walk_file (named : Named aim name more)
    (present : d.entry? (loc ++ [name]) = some (.file bytes)) :
    d.walk aim links loc (name :: more) =
      if more = [] then .ok (.there (loc ++ [name]) (.file bytes)) else .error .notDirectory := by
  rw [walk, if_neg named.1, if_neg named.2.1, if_neg named.2.2.1, if_neg named.2.2.2]
  simp only [present]

/-- A link that a path ends with stands for itself, if it is the entry that is asked for. -/
theorem walk_link (named : Named aim name []) (own : aim = .entry ∨ aim = .removal)
    (present : d.entry? (loc ++ [name]) = some (.link target)) :
    d.walk aim links loc [name] = .ok (.there (loc ++ [name]) (.link target)) := by
  rw [walk, if_neg named.1, if_neg named.2.1, if_neg named.2.2.1, if_neg named.2.2.2]
  simp only [present, true_and]
  rw [if_pos own]

/-- A link with a slash behind it is not removed. -/
theorem walk_slashed (named : Named .removal name more) (behind : more ≠ [])
    (empty : more.all List.isEmpty = true)
    (present : d.entry? (loc ++ [name]) = some (.link target)) :
    d.walk .removal links loc (name :: more) = .error .notDirectory := by
  rw [walk, if_neg named.1, if_neg named.2.1, if_neg named.2.2.1, if_neg named.2.2.2]
  simp only [present]
  rw [if_neg fun own => behind own.1, if_pos ⟨trivial, empty⟩]

/-- Any other link is followed, unless it is to be removed and has a slash behind it. -/
theorem walk_along (named : Named aim name more)
    (notOwn : ¬ (more = [] ∧ (aim = .entry ∨ aim = .removal)))
    (notRemoved : ¬ (aim = .removal ∧ more.all List.isEmpty = true))
    (present : d.entry? (loc ++ [name]) = some (.link target)) :
    d.walk aim (links + 1) loc (name :: more) =
      d.walk aim links (base target loc) (Path.components target ++ more) := by
  rw [walk, if_neg named.1, if_neg named.2.1, if_neg named.2.2.1, if_neg named.2.2.2]
  simp only [present]
  rw [if_neg notOwn, if_neg notRemoved, base]

/-- No link is followed once as many were as may be. -/
theorem walk_exhausted (named : Named aim name more)
    (notOwn : ¬ (more = [] ∧ (aim = .entry ∨ aim = .removal)))
    (notRemoved : ¬ (aim = .removal ∧ more.all List.isEmpty = true))
    (present : d.entry? (loc ++ [name]) = some (.link target)) :
    d.walk aim 0 loc (name :: more) = .error .tooManyLinks := by
  rw [walk, if_neg named.1, if_neg named.2.1, if_neg named.2.2.1, if_neg named.2.2.2]
  simp only [present]
  rw [if_neg notOwn, if_neg notRemoved]

end Named

/-- What a walk finds is what some way leads to. -/
theorem walk_eq_ok_iff :
    d.walk aim links loc rest = .ok spot ↔ Leads d aim links loc rest spot := by
  constructor
  · intro found
    fun_induction d.walk aim links loc rest with
    | case1 =>
      cases found
      exact .done
    | case2 links loc name more skipped ih => exact .skip skipped (ih found)
    | case3 links loc more _ ih => exact .up (ih found)
    | case6 links loc name more named notUp notMade short next absent ends =>
      cases found
      exact .free ⟨named, notUp, notMade, short⟩ absent ends
    | case8 links loc name more named notUp notMade short next present ih =>
      exact .directory ⟨named, notUp, notMade, short⟩ present (ih found)
    | case9 links loc name named notUp short next bytes present notMade =>
      cases found
      exact .file ⟨named, notUp, notMade, short⟩ present
    | case11 links loc name more named notUp notMade short next target present ends =>
      obtain ⟨rfl, own⟩ := ends
      cases found
      exact .link ⟨named, notUp, notMade, short⟩ present own
    | case14 loc name more named notUp notMade short next target present notOwn notRemoved k ih =>
      exact .along ⟨named, notUp, notMade, short⟩ present notOwn notRemoved (ih found)
    | _ => cases found
  · intro leads
    induction leads with
    | done => rw [walk]
    | skip skipped _ ih => rw [walk_skip skipped, ih]
    | up _ ih => rw [walk_up, ih]
    | free named absent ends => rw [walk_free named absent, if_pos ends]
    | directory named present _ ih => rw [walk_directory named present, ih]
    | file named present => rw [walk_file named present, if_pos rfl]
    | link named present own => rw [walk_link named own present]
    | along named present notOwn notRemoved _ ih =>
      rw [walk_along named notOwn notRemoved present, ih]

/-! ## Where a way ends -/

/-- The location that a way ends at. -/
def Spot.location : Spot → Location
  | .there l _ => l
  | .free l => l

/-- What stands where a way ends. -/
def Spot.entry? : Spot → Option Entry
  | .there _ e => some e
  | .free _ => none

/-- A spot is found as it is on the disk; a directory may also be where the way began. -/
theorem Leads.entry? (leads : Leads d aim links loc rest spot) :
    spot.entry? = some .directory ∨ d.entry? spot.location = spot.entry? := by
  induction leads with
  | done => exact .inl rfl
  | skip _ _ ih | up _ ih | directory _ _ _ ih | along _ _ _ _ _ ih => exact ih
  | free _ absent => exact .inr absent
  | file _ present | link _ present => exact .inr present

theorem Leads.entry_file {bytes : Bytes}
    (leads : Leads d aim links loc rest (.there l (.file bytes))) :
    d.entry? l = some (.file bytes) := by
  rcases leads.entry? with directory | same
  · cases directory
  · exact same

theorem Leads.entry_free (leads : Leads d aim links loc rest (.free l)) : d.entry? l = none := by
  rcases leads.entry? with directory | same
  · cases directory
  · exact same

theorem Leads.location_ne_nil (leads : Leads d aim links loc rest spot)
    (flat : spot.entry? ≠ some .directory) : spot.location ≠ [] := by
  intro root
  rcases leads.entry? with directory | same
  · exact flat directory
  · rw [root, entry?_nil] at same
    exact flat same.symm

/-! ## Walks on another disk -/

/-- Every directory and every link of a disk is one of another disk, and relative paths
    count from the same directory. -/
structure Keeps (d c : Disk) : Prop where
  cwd : c.cwd = d.cwd
  directory : ∀ {l}, d.entry? l = some .directory → c.entry? l = some .directory
  link : ∀ {l target}, d.entry? l = some (.link target) → c.entry? l = some (.link target)

theorem Keeps.refl (d : Disk) : Keeps d d := ⟨rfl, id, id⟩

theorem Keeps.trans {b : Disk} (first : Keeps d c) (second : Keeps c b) : Keeps d b :=
  ⟨second.cwd.trans first.cwd, second.directory ∘ first.directory, second.link ∘ first.link⟩

/-- A way still leads where it led if the same stands there. -/
theorem Leads.of_keeps (kept : Keeps d c) (leads : Leads d aim links loc rest spot)
    (same : c.entry? spot.location = d.entry? spot.location) :
    Leads c aim links loc rest spot := by
  induction leads with
  | done => exact .done
  | skip skipped _ ih => exact .skip skipped (ih same)
  | up _ ih => exact .up (ih same)
  | free named absent ends => exact .free named (same.trans absent) ends
  | directory named present _ ih => exact .directory named (kept.directory present) (ih same)
  | file named present => exact .file named (same.trans present)
  | link named present own => exact .link named (same.trans present) own
  | along named present notOwn notRemoved _ ih =>
    exact .along named (kept.link present) notOwn notRemoved (ih same)

/-- A file is still found after it was rewritten. -/
theorem Leads.rewritten (kept : Keeps d c) {bytes more : Bytes}
    (leads : Leads d aim links loc rest (.there l (.file bytes)))
    (now : c.entry? l = some (.file more)) :
    Leads c aim links loc rest (.there l (.file more)) := by
  generalize same : Spot.there l (.file bytes) = spot at leads
  induction leads with
  | done | free | link => cases same
  | skip skipped _ ih => exact .skip skipped (ih same)
  | up _ ih => exact .up (ih same)
  | directory named present _ ih => exact .directory named (kept.directory present) (ih same)
  | file named present =>
    cases same
    exact .file named now
  | along named present notOwn notRemoved _ ih =>
    exact .along named (kept.link present) notOwn notRemoved (ih same)

/-- A directory is still found where it was. -/
theorem Leads.directory_of_keeps (kept : Keeps d c)
    (leads : Leads d aim links loc rest (.there l .directory)) :
    Leads c aim links loc rest (.there l .directory) := by
  generalize same : Spot.there l .directory = spot at leads
  induction leads with
  | done =>
    cases same
    exact .done
  | free | file | link => cases same
  | skip skipped _ ih => exact .skip skipped (ih same)
  | up _ ih => exact .up (ih same)
  | directory named present _ ih => exact .directory named (kept.directory present) (ih same)
  | along named present notOwn notRemoved _ ih =>
    exact .along named (kept.link present) notOwn notRemoved (ih same)

/-- What is found in another way is what the path leads to, unless it is a link. -/
theorem Leads.target (leads : Leads d aim links loc rest spot)
    (solid : ∀ target, spot.entry? ≠ some (.link target)) : Leads d .target links loc rest spot := by
  have weaker : ∀ {name more}, Named aim name more → Named .target name more :=
    fun named => named.of_ne_creation (by decide)
  induction leads with
  | done => exact .done
  | skip skipped _ ih => exact .skip skipped (ih solid)
  | up _ ih => exact .up (ih solid)
  | free named absent ends => exact .free (weaker named) absent ends
  | directory named present _ ih => exact .directory (weaker named) present (ih solid)
  | file named present => exact .file (weaker named) present
  | link _ _ _ => exact absurd rfl (solid _)
  | along named present _ _ _ ih =>
    exact .along (weaker named) present (by simp) (by simp) (ih solid)

/-! ## Files that are made -/

/-- Whether a file can be written where such an entry stands, or none. -/
def Writable : Option Entry → Prop
  | none => True
  | some (.file _) => True
  | _ => False

theorem writable_ne_directory {e : Option Entry} (writable : Writable e) :
    e ≠ some .directory := by
  rintro rfl
  exact writable

theorem writable_ne_link {e : Option Entry} (writable : Writable e) (target : Path) :
    e ≠ some (.link target) := by
  rintro rfl
  exact writable

theorem ne_nil_of_writable (writable : Writable (d.entry? l)) : l ≠ [] := by
  rintro rfl
  exact writable

theorem keeps_put (writable : Writable (d.entry? l)) (e : Entry) : Keeps d (d.put l e) := by
  refine ⟨rfl, fun {k} there => ?_, fun {k target} there => ?_⟩
  · rw [entry?_put_of_ne d, there]
    rintro rfl
    exact writable_ne_directory writable there
  · rw [entry?_put_of_ne d, there]
    rintro rfl
    exact writable_ne_link writable target there

/-- The spot of a location where this stands. -/
def Spot.of (l : Location) : Option Entry → Spot
  | some e => .there l e
  | none => .free l

/-- Where a file could be written, one can be written as long as nothing else stands there. -/
theorem Leads.creation_of_keeps (kept : Keeps d c)
    (leads : Leads d .creation links loc rest spot) (writable : Writable spot.entry?)
    (still : Writable (c.entry? spot.location)) :
    Leads c .creation links loc rest (.of spot.location (c.entry? spot.location)) := by
  have ends : ∀ {links loc name}, Named .creation name [] → Writable (c.entry? (loc ++ [name])) →
      Leads c .creation links loc [name] (.of (loc ++ [name]) (c.entry? (loc ++ [name]))) := by
    intro links loc name named still
    cases now : c.entry? (loc ++ [name]) with
    | none => exact .free named now rfl
    | some e =>
      cases e with
      | file bytes => exact .file named now
      | directory => exact absurd now (writable_ne_directory still)
      | link target => exact absurd now (writable_ne_link still target)
  induction leads with
  | done => exact absurd rfl (writable_ne_directory writable)
  | skip skipped _ ih => exact .skip skipped (ih writable still)
  | up _ ih => exact .up (ih writable still)
  | free named absent empty =>
    -- A file is only made under a name with nothing behind it.
    have last : _ = [] := Classical.byContradiction fun more => named.2.2.1 ⟨rfl, more, empty⟩
    subst last
    exact ends named still
  | directory named present _ ih =>
    exact .directory named (kept.directory present) (ih writable still)
  | file named present => exact ends named still
  | link _ _ own => rcases own with own | own <;> cases own
  | along named present notOwn notRemoved _ ih =>
    exact .along named (kept.link present) notOwn notRemoved (ih writable still)

/-- Where a file can be written stands what the way has found. -/
theorem Leads.writable (leads : Leads d aim links loc rest spot) (writable : Writable spot.entry?) :
    Writable (d.entry? spot.location) := by
  rcases leads.entry? with directory | same
  · exact absurd directory (writable_ne_directory writable)
  · rwa [same]

/-- Once a file was made, what its path has removed is the file, or a link that the path
    ends with. -/
theorem Leads.removal_after (leads : Leads d .creation links loc rest spot)
    (writable : Writable spot.entry?) (bytes : Bytes) :
    ∃ l e, Leads (d.put spot.location (.file bytes)) .removal links loc rest (.there l e) ∧
      (l = spot.location ∨ ∃ target, e = .link target ∧
        Leads d .removal links loc rest (.there l e)) := by
  have there := leads.writable writable
  have now := entry?_put_self d (ne_nil_of_writable there) (.file bytes)
  have kept := keeps_put there (.file bytes)
  have weaker : ∀ {name more}, Named .creation name more → Named .removal name more :=
    fun named => named.of_ne_creation (by decide)
  clear there
  induction leads with
  | done => exact absurd rfl (writable_ne_directory writable)
  | skip skipped _ ih =>
    obtain ⟨l, e, found, isFile | ⟨target, isLink, was⟩⟩ := ih writable now kept
    · exact ⟨l, e, .skip skipped found, .inl isFile⟩
    · exact ⟨l, e, .skip skipped found, .inr ⟨target, isLink, .skip skipped was⟩⟩
  | up _ ih =>
    obtain ⟨l, e, found, isFile | ⟨target, isLink, was⟩⟩ := ih writable now kept
    · exact ⟨l, e, .up found, .inl isFile⟩
    · exact ⟨l, e, .up found, .inr ⟨target, isLink, .up was⟩⟩
  | free named absent ends =>
    have last : _ = [] := Classical.byContradiction fun behind => named.2.2.1 ⟨rfl, behind, ends⟩
    subst last
    exact ⟨_, _, .file (weaker named) now, .inl rfl⟩
  | directory named present _ ih =>
    obtain ⟨l, e, found, isFile | ⟨target, isLink, was⟩⟩ := ih writable now kept
    · exact ⟨l, e, .directory (weaker named) (kept.directory present) found, .inl isFile⟩
    · exact ⟨l, e, .directory (weaker named) (kept.directory present) found,
        .inr ⟨target, isLink, .directory (weaker named) present was⟩⟩
  | file named present => exact ⟨_, _, .file (weaker named) now, .inl rfl⟩
  | link _ _ own => rcases own with own | own <;> cases own
  | @along _ _ name more target _ named present _ _ _ ih =>
    by_cases last : more = []
    -- The link is what the path ends with.
    · subst last
      exact ⟨_, _, .link (weaker named) (kept.link present) (.inr rfl),
        .inr ⟨target, rfl, .link (weaker named) present (.inr rfl)⟩⟩
    · have notOwn : ¬ (more = [] ∧ (Aim.removal = .entry ∨ Aim.removal = .removal)) :=
        fun both => last both.1
      have notRemoved : ¬ (Aim.removal = .removal ∧ more.all List.isEmpty = true) :=
        fun both => named.2.2.1 ⟨rfl, last, both.2⟩
      obtain ⟨l, e, found, isFile | ⟨target, isLink, was⟩⟩ := ih writable now kept
      · exact ⟨l, e, .along (weaker named) (kept.link present) notOwn notRemoved found, .inl isFile⟩
      · exact ⟨l, e, .along (weaker named) (kept.link present) notOwn notRemoved found,
          .inr ⟨target, isLink, .along (weaker named) present notOwn notRemoved was⟩⟩

end Arabize.Disk
