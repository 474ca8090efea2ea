import Arabize.Proofs.Disk.Access
import Arabize.Proofs.Disk.Walk

/-! # What changes of a disk leave behind

A file is written where its path `Lands`: over a file that is there, or where there is
nothing.  It is opened before its text is encoded, so a text without an encoding leaves the
beginning of it behind.  Directories that are made come where there was nothing.
-/

namespace Arabize.Disk

variable {d c after : Disk} {aim : Aim} {p : Path} {l : Location} {spot : Spot}

/-! ## Where a path leads -/

/-- A path that the system looks up. -/
def Walkable (p : Path) : Prop := Passable p ∧ p ≠ [] ∧ ¬ maxPath < Path.size p

instance (p : Path) : Decidable (Walkable p) := inferInstanceAs (Decidable (_ ∧ _))

theorem locate_eq_ok_iff : d.locate aim p = .ok spot ↔
    Walkable p ∧ Leads d aim maxLinks (d.origin p) (Path.components p) spot := by
  rw [← walk_eq_ok_iff, Walkable, ← passPath_eq_ok_iff]
  unfold locate find
  cases passed : passPath p with
  | error e => simp
  | ok =>
    by_cases empty : p = []
    · simp [empty]
    · by_cases long : maxPath < Path.size p
      · simp [empty, long]
      · cases found : d.walk aim maxLinks (d.origin p) (Path.components p) <;>
          simp [empty, long]

/-- Nothing but a directory is the root. -/
theorem ne_nil_of_locate {e : Entry} (flat : e ≠ .directory)
    (found : d.locate aim p = .ok (.there l e)) : l ≠ [] :=
  (locate_eq_ok_iff.1 found).2.location_ne_nil (by simpa [Spot.entry?] using flat)

theorem origin_congr (same : c.cwd = d.cwd) (p : Path) : c.origin p = d.origin p := by
  unfold origin
  rw [same]

/-- Where the file at a path is written: over a file that is there, or where nothing is. -/
def Lands (d : Disk) (p : Path) (l : Location) : Prop :=
  ∃ spot, d.locate .creation p = .ok spot ∧ Writable spot.entry? ∧ spot.location = l

theorem Lands.writable (lands : Lands d p l) : Writable (d.entry? l) := by
  obtain ⟨spot, found, writable, rfl⟩ := lands
  exact (locate_eq_ok_iff.1 found).2.writable writable

theorem Lands.passable (lands : Lands d p l) : Passable p := by
  obtain ⟨spot, found, _, _⟩ := lands
  exact (locate_eq_ok_iff.1 found).1.1

theorem Lands.unique {k : Location} (lands : Lands d p l) (also : Lands d p k) : l = k := by
  obtain ⟨spot, found, _, rfl⟩ := lands
  obtain ⟨other, again, _, rfl⟩ := also
  rw [found] at again
  cases again
  rfl

/-- A path still lands where it did as long as a file can be written there. -/
theorem Lands.of_keeps (lands : Lands d p l) (kept : Keeps d c) (writable : Writable (c.entry? l)) :
    Lands c p l := by
  obtain ⟨spot, found, was, rfl⟩ := lands
  obtain ⟨walkable, leads⟩ := locate_eq_ok_iff.1 found
  have now := leads.creation_of_keeps kept was writable
  rw [← origin_congr kept.cwd] at now
  refine ⟨_, locate_eq_ok_iff.2 ⟨walkable, now⟩, ?_, ?_⟩ <;>
    cases there : c.entry? spot.location
  · exact trivial
  · rwa [there] at writable
  · rfl
  · rfl

theorem Lands.keeps_put (lands : Lands d p l) (e : Entry) : Keeps d (d.put l e) :=
  Disk.keeps_put lands.writable e

/-! ## Reading -/

theorem readBytes_eq_ok_iff {bytes : Bytes} : d.readBytes p = .ok bytes ↔
    ∃ l, d.locate .target p = .ok (.there l (.file bytes)) := by
  unfold readBytes
  cases found : d.locate .target p with
  | error e => simp
  | ok spot =>
    cases spot with
    | free l => simp
    | there l e => cases e <;> simp

/-- What was written at a path is read there. -/
theorem Lands.readBytes (lands : Lands d p l) (kept : Keeps d c) {bytes : Bytes}
    (now : c.entry? l = some (.file bytes)) : c.readBytes p = .ok bytes := by
  have writable : Writable (c.entry? l) := by
    rw [now]
    trivial
  obtain ⟨spot, found, was, same⟩ := lands.of_keeps kept writable
  obtain ⟨walkable, leads⟩ := locate_eq_ok_iff.1 found
  refine readBytes_eq_ok_iff.2 ⟨l, locate_eq_ok_iff.2 ⟨walkable, ?_⟩⟩
  have there := leads.target (writable_ne_link was)
  rcases leads.entry? with directory | entry
  · exact absurd directory (writable_ne_directory was)
  · rw [same, now] at entry
    cases spot with
    | free k => cases entry
    | there k e =>
      cases entry
      cases same
      exact there

/-! ## Writing -/

theorem createFile_of_ok (created : createFile p d = (.ok l, after)) :
    Lands d p l ∧ after = d.put l (.file []) := by
  unfold createFile at created
  split at created <;> cases created
  next bytes found => exact ⟨⟨_, found, trivial, rfl⟩, rfl⟩
  next found => exact ⟨⟨_, found, trivial, rfl⟩, rfl⟩

theorem Lands.createFile (lands : Lands d p l) :
    createFile p d = (.ok l, d.put l (.file [])) := by
  obtain ⟨spot, found, writable, rfl⟩ := lands
  unfold Disk.createFile
  rw [found]
  cases spot with
  | free k => rfl
  | there k e =>
    cases e with
    | file bytes => rfl
    | directory => exact writable.elim
    | link target => exact writable.elim

theorem createFile_of_error {e : AccessError} (failed : createFile p d = (.error e, after)) :
    after = d := by
  unfold createFile at failed
  split at failed <;> cases failed <;> rfl

/-- A file that is written holds what its pieces are encoded as, up to the first one that has
    no encoding; then nothing else has changed. -/
theorem Lands.writePieces (lands : Lands d p l) (pieces : List Text) :
    writePieces p pieces d = ((match (encodePieces pieces).2 with
      | some e => .error (.unencodable e)
      | none => .ok ()), d.put l (.file (encodePieces pieces).1)) := by
  rw [Disk.writePieces, bind_of_ok lands.createFile,
    ← put_put d l (.file (encodePieces pieces).1) (.file [])]
  rcases encodePieces pieces with ⟨bytes, _ | e⟩ <;> rfl

theorem writePieces_cases (p : Path) (pieces : List Text) (d : Disk) :
    (∃ e, createFile p d = (.error e, d) ∧ writePieces p pieces d = (.error e, d)) ∨
      ∃ l, Lands d p l ∧ writePieces p pieces d =
        ((match (encodePieces pieces).2 with
          | some e => .error (.unencodable e)
          | none => .ok ()), d.put l (.file (encodePieces pieces).1)) := by
  rcases created : createFile p d with ⟨e | l, opened⟩
  · obtain rfl := createFile_of_error created
    exact .inl ⟨e, rfl, bind_of_error created⟩
  · obtain ⟨lands, -⟩ := createFile_of_ok created
    exact .inr ⟨l, lands, lands.writePieces pieces⟩

/-! ## What lasts -/

/-- Directories, links and files last; a file may hold something else. -/
structure Lasts (d c : Disk) : Prop where
  keeps : Keeps d c
  file : ∀ {l bytes}, d.entry? l = some (.file bytes) → ∃ more, c.entry? l = some (.file more)

theorem Lasts.refl (d : Disk) : Lasts d d := ⟨.refl d, fun there => ⟨_, there⟩⟩

theorem Lasts.trans {b : Disk} (first : Lasts d c) (second : Lasts c b) : Lasts d b := by
  refine ⟨first.keeps.trans second.keeps, fun there => ?_⟩
  obtain ⟨_, still⟩ := first.file there
  exact second.file still

theorem lasts_put (writable : Writable (d.entry? l)) (bytes : Bytes) :
    Lasts d (d.put l (.file bytes)) := by
  refine ⟨keeps_put writable _, fun {k} old there => ?_⟩
  rw [entry?_put d (ne_nil_of_writable writable)]
  split
  · exact ⟨bytes, rfl⟩
  · exact ⟨old, there⟩

/-! ## Making directories -/

/-- What a disk held is there, and what is new is a directory. -/
structure Adds (d c : Disk) : Prop where
  cwd : c.cwd = d.cwd
  entry : ∀ l, c.entry? l = d.entry? l ∨ d.entry? l = none ∧ c.entry? l = some .directory

theorem Adds.refl (d : Disk) : Adds d d := ⟨rfl, fun _ => .inl rfl⟩

theorem Adds.entry_of_some (adds : Adds d c) {e : Entry} (there : d.entry? l = some e) :
    c.entry? l = some e := by
  rcases adds.entry l with same | ⟨absent, _⟩
  · rw [same, there]
  · rw [there] at absent
    cases absent

theorem Adds.trans {b : Disk} (first : Adds d c) (second : Adds c b) : Adds d b := by
  refine ⟨second.cwd.trans first.cwd, fun l => ?_⟩
  rcases first.entry l with same | ⟨absent, made⟩
  · rw [← same]
    exact second.entry l
  · exact .inr ⟨absent, second.entry_of_some made⟩

theorem Adds.keeps (adds : Adds d c) : Keeps d c :=
  ⟨adds.cwd, adds.entry_of_some, adds.entry_of_some⟩

theorem Adds.lasts (adds : Adds d c) : Lasts d c :=
  ⟨adds.keeps, fun there => ⟨_, adds.entry_of_some there⟩⟩

theorem Adds.file_iff (adds : Adds d c) {bytes : Bytes} :
    c.entry? l = some (.file bytes) ↔ d.entry? l = some (.file bytes) := by
  rcases adds.entry l with same | ⟨absent, made⟩
  · rw [same]
  · simp [absent, made]

/-- After directories were made and a file written, it alone may be another one. -/
theorem Adds.file_put_iff (adds : Adds d c) {k : Location} (named : l ≠ []) {new bytes : Bytes} :
    Disk.entry? (c.put l (.file new)) k = some (.file bytes) ↔
      if k = l then new = bytes else d.entry? k = some (.file bytes) := by
  rw [entry?_put c named]
  split
  · simp
  · exact adds.file_iff

theorem makeDirectory_adds (p : Path) (d : Disk) : Adds d (makeDirectory p d).2 := by
  unfold makeDirectory
  split
  next loc found =>
    have absent := (locate_eq_ok_iff.1 found).2.entry_free
    have named : loc ≠ [] := by
      rintro rfl
      cases absent
    refine ⟨rfl, fun l => ?_⟩
    by_cases here : l = loc
    · subst here
      exact .inr ⟨absent, entry?_put_self d named _⟩
    · exact .inl (entry?_put_of_ne d here _)
  · split <;> exact .refl d
  · split <;> exact .refl d

theorem makeDirectories_adds (p : Path) (d : Disk) : Adds d (makeDirectories p d).2 := by
  fun_induction makeDirectories p d with
  | case1 p => exact makeDirectory_adds p d
  | case2 p => exact makeDirectory_adds p d
  -- The directories above were made first.
  | case3 p head name named below made path here above ih =>
    rwa [above] at ih
  | case4 p head name named below made path other above ih =>
    rw [above] at ih
    exact ih.trans (makeDirectory_adds p made)
  | case5 p head name named below e made above other ih =>
    rwa [above] at ih
  | case6 p head name named below made above here ih =>
    rwa [above] at ih
  | case7 p head name named below made above other ih =>
    rw [above] at ih
    exact ih.trans (makeDirectory_adds p made)

end Arabize.Disk
