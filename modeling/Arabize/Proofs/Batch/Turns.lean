import Arabize.Proofs.Batch.Truth
import Arabize.Proofs.Project.Alike

/-! # The turns of a rendering

One file after the other has its turn, and a turn writes one file at most.  As long as the
directories of the renditions are there, no turn makes one, so the disk stays the same but for
its files.  A second rendering that finds, at every turn, the source that the first one has
found comes to the same outcomes, and writes the same.
-/

namespace Arabize

/-- What an outcome says, but for the words of its error. -/
def Outcome.gist (o : Outcome) : Path × Verdict × Path := (o.path, o.verdict, o.output)

namespace Batch

open Disk (Alike Lands Lasts Writable)

variable {s : Settings} {mirror : Option Mirror} {words : Vocabulary} {p : Path}
  {paths : List Path}

/-! ## What a rendering leaves there -/

theorem Ended.lasts [Script.Parser] {b : Bench} {o : Outcome} {disk : Disk}
    (ended : Ended s mirror words p b o disk) : Lasts b.disk disk := by
  cases ended with
  | idle _ same _ => exact same ▸ .refl disk
  | closed _ _ adds _ => exact adds.lasts
  | emptied _ opens _ same _ =>
    rw [same]
    exact opens.adds.lasts.trans (Disk.lasts_put opens.2.2.writable _)
  | written _ opens _ same _ _ =>
    rw [same]
    exact opens.adds.lasts.trans (Disk.lasts_put opens.2.2.writable _)

/-- A rendering takes nothing away. -/
theorem outcomes_lasts [Script.Parser] {b last : Bench} {os : List Outcome}
    (given : outcomes s mirror words paths b = (.ok os, last)) : Lasts b.disk last.disk := by
  induction paths generalizing b os with
  | nil =>
    cases given
    exact .refl _
  | cons p rest ih =>
    obtain ⟨o, next, here, given⟩ := bind_eq_ok.1 given
    obtain ⟨more, final, behind, given⟩ := bind_eq_ok.1 given
    cases given
    exact (outcome_ends here).lasts.trans (ih behind)

/-! ## One turn -/

/-- A path leads to a file, which holds these bytes. -/
def LeadsTo (d : Disk) (p : Path) (l : Location) (bytes : Bytes) : Prop :=
  d.locate .target p = .ok (.there l (.file bytes))

/-- The directory that the absolute path of a rendition names is there. -/
def HasPlace (d : Disk) (p : Path) : Prop :=
  d.isDirectory (Path.directory (Path.absolute d.cwd (Path.rendition p))) = true

theorem LeadsTo.of_lasts {d c : Disk} {l : Location} {bytes : Bytes} (lasts : Lasts d c)
    (leads : LeadsTo d p l bytes) : ∃ more, LeadsTo c p l more := by
  obtain ⟨more, now⟩ := lasts.file (Disk.entry_of_locate_file leads)
  exact ⟨more, Disk.locate_file_of_keeps lasts.keeps leads now⟩

theorem HasPlace.of_alike {d c : Disk} (alike : Alike d c) (place : HasPlace d p) :
    HasPlace c p := by
  rw [HasPlace, alike.cwd]
  exact Disk.isDirectory_of_keeps alike.keeps place

/-- What two turns write: nothing, or the same at the same location. -/
def WriteAlike (x y : Disk) (p : Path) (after next : Disk) : Prop :=
  after = x ∧ next = y ∨ ∃ l bytes, Lands x (Path.rendition p) l ∧
    after = x.put l (.file bytes) ∧ next = y.put l (.file bytes)

variable {x y : Disk}

theorem WriteAlike.alike {after next : Disk} (written : WriteAlike x x p after next) :
    Alike x after := by
  rcases written with ⟨rfl, _⟩ | ⟨l, bytes, lands, rfl, _⟩
  · exact .refl _
  · exact .put x lands.writable bytes

theorem settle_turn (alike : Alike x y) (place : HasPlace x p) (t : Draft) {r q : Run}
    (same : SameMemory r q) :
    ∃ result again after next, settle s p t ⟨x, r⟩ = (result, after) ∧
      settle s p t ⟨y, q⟩ = (again, next) ∧ SameMemory after.run next.run ∧
      WriteAlike x y p after.disk next.disk ∧
      (result = .ok t.outcome ∧ again = .ok t.outcome ∨
        ∃ e f, result = .error (.project e) ∧ again = .error (.project f)) := by
  unfold settle
  cases t.content with
  | none => exact ⟨_, _, _, _, rfl, rfl, same, .inl ⟨rfl, rfl⟩, .inl ⟨rfl, rfl⟩⟩
  | some content =>
    rcases Project.write_alike s.projectRoot alike place content with
      ⟨e, f, failed, also⟩ | ⟨result, l, bytes, lands, here, there⟩
    · simp only [failed, also]
      exact ⟨_, _, _, _, rfl, rfl, same, .inl ⟨rfl, rfl⟩, .inr ⟨e, f, rfl, rfl⟩⟩
    · simp only [here, there]
      cases result with
      | ok => exact ⟨_, _, _, _, rfl, rfl, same, .inr ⟨l, bytes, lands, rfl, rfl⟩, .inl ⟨rfl, rfl⟩⟩
      | error e =>
        exact ⟨_, _, _, _, rfl, rfl, same, .inr ⟨l, bytes, lands, rfl, rfl⟩, .inr ⟨e, e, rfl, rfl⟩⟩

/-- Where a path leads to the same source on both disks, the same is read, or nothing on either. -/
theorem read_turn (alike : Alike x y)
    (source : ∀ l bytes, LeadsTo x p l bytes ↔ LeadsTo y p l bytes) (root tool : Path) :
    (∃ content l bytes, Project.read x root tool p = .ok content ∧
      Project.read y root tool p = .ok content ∧ LeadsTo x p l bytes) ∨
    ∃ e f, Project.read x root tool p = .error e ∧ Project.read y root tool p = .error f := by
  cases found : Project.read x root tool p with
  | ok content =>
    obtain ⟨l, bytes, here⟩ := Project.file_of_read found
    refine .inl ⟨content, l, bytes, rfl, ?_, here⟩
    rw [Project.read_links alike.cwd alike.link? here ((source l bytes).1 here), found]
  | error e =>
    cases other : Project.read y root tool p with
    | error f => exact .inr ⟨e, f, rfl, rfl⟩
    | ok content =>
      obtain ⟨l, bytes, there⟩ := Project.file_of_read other
      rw [Project.read_links alike.cwd alike.link? ((source l bytes).2 there) there, found] at other
      cases other

/-- A turn that finds the same source on a disk with other files has the same outcome, and
    writes the same. -/
theorem outcome_turn [Script.Parser] (alike : Alike x y) {r q : Run} (same : SameMemory r q)
    (source : ∀ l bytes, LeadsTo x p l bytes ↔ LeadsTo y p l bytes)
    (place : ∀ l bytes, LeadsTo x p l bytes → HasPlace x p) {o : Outcome} {after : Bench}
    (given : outcome s mirror words p ⟨x, r⟩ = (.ok o, after)) :
    ∃ again next, outcome s mirror words p ⟨y, q⟩ = (.ok again, next) ∧
      again.gist = o.gist ∧ SameMemory after.run next.run ∧
      WriteAlike x y p after.disk next.disk := by
  rcases read_turn alike source s.projectRoot s.toolRoot with
    ⟨content, l, bytes, found, again, here⟩ | ⟨e, f, failed, also⟩
  · -- The drafts are the same, so all that can differ is why a rendition could not be written.
    obtain ⟨drafts, memory⟩ := draft_same mirror words p content same
    rcases drafted : draft mirror words p content r with ⟨result, run⟩
    rcases also : draft mirror words p content q with ⟨other, later⟩
    rw [drafted, also] at drafts memory
    dsimp only at drafts memory
    subst drafts
    simp only [outcome, render_eq, found, drafted, again, also] at given ⊢
    cases result with
    | error e =>
      dsimp only at given ⊢
      split at given
      next expected =>
        cases given
        rw [if_pos expected]
        exact ⟨_, _, rfl, rfl, memory, .inl ⟨rfl, rfl⟩⟩
      · cases given
    | ok t =>
      dsimp only at given ⊢
      obtain ⟨result, other, after, next, settled, also, memory, written, outcomes⟩ :=
        settle_turn (s := s) alike (place l bytes here) t memory
      rw [settled] at given
      rw [also]
      rcases outcomes with ⟨rfl, rfl⟩ | ⟨e, f, rfl, rfl⟩
      · cases given
        exact ⟨_, _, rfl, rfl, memory, written⟩
      · cases given
        exact ⟨_, _, rfl, rfl, memory, written⟩
  · rw [outcome_of_unreadable (b := ⟨x, r⟩) failed] at given
    cases given
    rw [outcome_of_unreadable (b := ⟨y, q⟩) also]
    exact ⟨_, _, rfl, rfl, same, .inl ⟨rfl, rfl⟩⟩

/-! ## All turns -/

/-- A rendering whose files have their places keeps directories and links as they are, and
    writes only where renditions land. -/
theorem outcomes_alike [Script.Parser] {b last : Bench} {os : List Outcome}
    (given : outcomes s mirror words paths b = (.ok os, last))
    (placed : ∀ p ∈ paths, ∀ l bytes, LeadsTo last.disk p l bytes → HasPlace b.disk p) :
    Alike b.disk last.disk ∧ ∀ l, (∀ p ∈ paths, ¬ Lands b.disk (Path.rendition p) l) →
      last.disk.entry? l = b.disk.entry? l := by
  induction paths generalizing b os with
  | nil =>
    cases given
    exact ⟨.refl _, fun _ _ => rfl⟩
  | cons p rest ih =>
    have lasts := outcomes_lasts given
    obtain ⟨o, next, here, given⟩ := bind_eq_ok.1 given
    obtain ⟨more, final, behind, given⟩ := bind_eq_ok.1 given
    cases given
    obtain ⟨ofFirst, ofRest⟩ := List.forall_mem_cons.1 placed
    -- A turn beside itself says what it writes.
    obtain ⟨_, _, _, _, _, written⟩ := outcome_turn (.refl b.disk) (r := b.run) (q := b.run) rfl
      (fun _ _ => Iff.rfl) (fun l bytes leads => by
        obtain ⟨more, later⟩ := leads.of_lasts lasts
        exact ofFirst l more later) here
    have alike := written.alike
    obtain ⟨further, untouched⟩ := ih behind fun q member l bytes leads =>
      (ofRest q member l bytes leads).of_alike alike
    refine ⟨alike.trans further, fun l elsewhere => ?_⟩
    obtain ⟨first, others⟩ := List.forall_mem_cons.1 elsewhere
    rw [untouched l fun q member lands => others q member (alike.lands_iff.1 lands)]
    rcases written with ⟨same, _⟩ | ⟨k, bytes, lands, same, _⟩ <;> rw [same]
    refine Disk.entry?_put_of_ne _ ?_ _
    rintro rfl
    exact first lands

/-- Two renderings side by side: at the locations that were written they have the same, at
    all others the first one has what it began with, the second one what the first one ends
    with. -/
structure Abreast (start goal : Disk) (written : Location → Prop) (x y : Disk) : Prop where
  one : Alike start x
  other : Alike start y
  same : ∀ l, written l → y.entry? l = x.entry? l
  old : ∀ l, ¬ written l → x.entry? l = start.entry? l
  new : ∀ l, ¬ written l → y.entry? l = goal.entry? l

variable {start goal : Disk} {written : Location → Prop}

/-- A source that has not changed is the same for both. -/
theorem Abreast.source (abreast : Abreast start goal written x y) (ends : Alike start goal)
    (lasts : Lasts x goal)
    (kept : ∀ l bytes, LeadsTo goal p l bytes → start.entry? l = some (.file bytes))
    (l : Location) (bytes : Bytes) : LeadsTo x p l bytes ↔ LeadsTo y p l bytes := by
  have ahead : Alike x y := abreast.one.symm.trans abreast.other
  constructor
  · intro leads
    refine Disk.locate_file_of_keeps ahead.keeps leads ?_
    have here := Disk.entry_of_locate_file leads
    by_cases there : written l
    · rw [abreast.same l there, here]
    · obtain ⟨more, later⟩ := leads.of_lasts lasts
      rw [abreast.old l there, kept l more later] at here
      rw [abreast.new l there, Disk.entry_of_locate_file later, here]
  · intro leads
    refine Disk.locate_file_of_keeps ahead.symm.keeps leads ?_
    have here := Disk.entry_of_locate_file leads
    by_cases there : written l
    · rw [← abreast.same l there, here]
    · have now : goal.entry? l = some (.file bytes) := by rw [← abreast.new l there, here]
      have later : LeadsTo goal p l bytes :=
        Disk.locate_file_of_keeps (abreast.other.symm.trans ends).keeps leads now
      rw [abreast.old l there, kept l bytes later]

theorem Abreast.turn (abreast : Abreast start goal written x y) {after next : Disk}
    (turn : WriteAlike x y p after next) :
    ∃ more, Abreast start goal more after next := by
  rcases turn with ⟨rfl, rfl⟩ | ⟨k, bytes, lands, rfl, rfl⟩
  · exact ⟨written, abreast⟩
  · have ahead : Alike x y := abreast.one.symm.trans abreast.other
    have named := Disk.ne_nil_of_writable lands.writable
    refine ⟨fun l => l = k ∨ written l, abreast.one.trans (.put x lands.writable bytes),
      abreast.other.trans (.put y (ahead.writable lands.writable) bytes), fun l there => ?_,
      fun l elsewhere => ?_, fun l elsewhere => ?_⟩
    · rw [Disk.entry?_put x named, Disk.entry?_put y named]
      split
      · rfl
      next other => exact abreast.same l (there.resolve_left other)
    · rw [Disk.entry?_put_of_ne x fun here => elsewhere (.inl here)]
      exact abreast.old l fun there => elsewhere (.inr there)
    · rw [Disk.entry?_put_of_ne y fun here => elsewhere (.inl here)]
      exact abreast.new l fun there => elsewhere (.inr there)

/-- A second rendering abreast of a first one comes to the same outcomes and to the same
    disk. -/
theorem outcomes_again [Script.Parser] {r q : Run} {os : List Outcome} {last : Bench}
    (given : outcomes s mirror words paths ⟨x, r⟩ = (.ok os, last)) (same : SameMemory r q)
    (abreast : Abreast start last.disk written x y) (ends : Alike start last.disk)
    (kept : ∀ p ∈ paths, ∀ l bytes, LeadsTo last.disk p l bytes →
      start.entry? l = some (.file bytes))
    (placed : ∀ p ∈ paths, ∀ l bytes, LeadsTo last.disk p l bytes → HasPlace start p) :
    ∃ again final, outcomes s mirror words paths ⟨y, q⟩ = (.ok again, final) ∧
      again.map Outcome.gist = os.map Outcome.gist ∧ SameMemory last.run final.run ∧
      ∀ l, final.disk.entry? l = last.disk.entry? l := by
  induction paths generalizing x y r q os written with
  | nil =>
    cases given
    refine ⟨[], ⟨y, q⟩, rfl, rfl, same, fun l => ?_⟩
    by_cases there : written l
    · exact abreast.same l there
    · exact abreast.new l there
  | cons p rest ih =>
    have lasts := outcomes_lasts given
    obtain ⟨o, next, here, given⟩ := bind_eq_ok.1 given
    obtain ⟨more, final, behind, given⟩ := bind_eq_ok.1 given
    cases given
    obtain ⟨keptHere, keptBehind⟩ := List.forall_mem_cons.1 kept
    obtain ⟨placedHere, placedBehind⟩ := List.forall_mem_cons.1 placed
    -- The file holds what it held at the start, so both turns find the same source.
    obtain ⟨again, later, turn, gist, memory, wrote⟩ := outcome_turn
      (abreast.one.symm.trans abreast.other) same (abreast.source ends lasts keptHere)
      (fun l bytes leads => by
        obtain ⟨now, later⟩ := leads.of_lasts lasts
        exact (placedHere l now later).of_alike abreast.one) here
    obtain ⟨_, abreast⟩ := abreast.turn wrote
    obtain ⟨others, last, turns, gists, memory, disk⟩ :=
      ih behind memory abreast keptBehind placedBehind
    exact ⟨again :: others, last, outcomes_cons turn turns,
      by simp only [List.map_cons, gist, gists], memory, disk⟩

end Batch

end Arabize
