import Arabize.Proofs.Batch.Draft
import Arabize.Proofs.Batch.Stages
import Arabize.Proofs.Project.Beside

/-! # Renderings on one disk beside another

Two disks that differ in no path that a rendering looks up cannot be told apart by it: the
outcomes are the same, and so is what is written.  What was reported before makes no
difference.
-/

namespace Arabize.Batch

open Disk (Avoids Beside)

/-- The paths that the rendering of a file looks up. -/
def renderingPaths (s : Settings) (cwd p : Path) : List Path :=
  [s.projectRoot, s.toolRoot, p, Path.rendition p,
    Path.directory (Path.absolute cwd (Path.rendition p))]

/-- Two benches whose disks are beside each other and whose runs remember the same. -/
structure BesideBench (away : Location → Prop) (d : Disk) (b c : Bench) : Prop where
  disks : Beside away d b.disk c.disk
  memory : SameMemory b.run c.run

variable {away : Location → Prop} {d : Disk} {s : Settings} {p : Path} {b c : Bench}

theorem BesideBench.read (beside : BesideBench away d b c)
    (avoids : ∀ q ∈ renderingPaths s d.cwd p, Avoids away d q) :
    Project.read b.disk s.projectRoot s.toolRoot p =
      Project.read c.disk s.projectRoot s.toolRoot p := by
  simp only [renderingPaths, List.forall_mem_cons] at avoids
  obtain ⟨root, tool, source, -⟩ := avoids
  exact Project.read_beside beside.disks root source tool

theorem settle_lockstep (avoids : ∀ q ∈ renderingPaths s d.cwd p, Avoids away d q) (t : Draft) :
    Lockstep (BesideBench away d) (settle s p t) (settle s p t) := by
  simp only [renderingPaths, List.forall_mem_cons] at avoids
  obtain ⟨root, -, -, output, directory, -⟩ := avoids
  intro b c beside
  unfold settle
  cases t.content with
  | none => exact ⟨rfl, beside.disks, beside.memory⟩
  | some content =>
    obtain ⟨written, disk, other, here, there, still⟩ :=
      (Project.write_lockstep root output directory content).runs beside.disks
    simp only [ExceptT.run] at here there
    simp only [here, there]
    cases written <;> exact ⟨rfl, still, beside.memory⟩

theorem render_lockstep [Script.Parser] (mirror : Option Mirror) (words : Vocabulary)
    (avoids : ∀ q ∈ renderingPaths s d.cwd p, Avoids away d q) :
    Lockstep (BesideBench away d) (render s mirror words p).run (render s mirror words p).run := by
  intro b c beside
  simp only [ExceptT.run, render_eq, ← beside.read avoids]
  cases Project.read b.disk s.projectRoot s.toolRoot p with
  | error e => exact ⟨rfl, beside⟩
  | ok source =>
    dsimp only
    obtain ⟨drafts, memory⟩ := draft_same mirror words p source beside.memory
    rcases here : draft mirror words p source b.run with ⟨drafted, run⟩
    rcases there : draft mirror words p source c.run with ⟨also, other⟩
    rw [here, there] at drafts memory
    dsimp only at drafts memory
    subst drafts
    cases drafted with
    | error e => exact ⟨rfl, beside.disks, memory⟩
    | ok t => exact settle_lockstep avoids t _ _ ⟨beside.disks, memory⟩

theorem outcome_lockstep [Script.Parser] (mirror : Option Mirror) (words : Vocabulary)
    (avoids : ∀ q ∈ renderingPaths s d.cwd p, Avoids away d q) :
    Lockstep (BesideBench away d) (outcome s mirror words p).run
      (outcome s mirror words p).run := by
  intro b c beside
  obtain ⟨rendered, bench, other, here, there, still⟩ :=
    (render_lockstep mirror words avoids).runs beside
  simp only [ExceptT.run] at here there
  simp only [ExceptT.run, outcome, here, there]
  cases rendered with
  | ok o => exact ⟨rfl, still⟩
  | error e =>
    dsimp only
    split
    · exact ⟨rfl, still.disks, still.memory⟩
    · exact ⟨rfl, still⟩

theorem outcomes_lockstep [Script.Parser] (mirror : Option Mirror) (words : Vocabulary)
    {paths : List Path} (avoids : ∀ p ∈ paths, ∀ q ∈ renderingPaths s d.cwd p, Avoids away d q) :
    Lockstep (BesideBench away d) (outcomes s mirror words paths).run
      (outcomes s mirror words paths).run := by
  induction paths with
  | nil => exact .pure _
  | cons p rest ih =>
    obtain ⟨here, behind⟩ := List.forall_mem_cons.1 avoids
    exact (outcome_lockstep mirror words here).bindExcept fun o =>
      (ih behind).bindExcept fun os => .pure _

/-! ## Whole renderings -/

/-- Two sessions whose disks are beside each other. -/
def BesideSession {σ : Type} (away : Location → Prop) (d : Disk) (one other : Session σ) : Prop :=
  Beside away d one.disk other.disk

variable {σ : Type}

theorem renderAll_lockstep [Script.Parser] (mirror : Option Mirror) (words : Vocabulary)
    {paths : List Path} (avoids : ∀ p ∈ paths, ∀ q ∈ renderingPaths s d.cwd p, Avoids away d q) :
    Lockstep (BesideSession (σ := σ) away d) (renderAll s mirror words paths).run
      (renderAll s mirror words paths).run := by
  intro one other beside
  obtain ⟨rendered, bench, also, here, there, still⟩ :=
    (outcomes_lockstep mirror words avoids).runs
      (s := ⟨one.disk, [], one.log⟩) (t := ⟨other.disk, [], other.log⟩) ⟨beside, rfl⟩
  simp only [ExceptT.run] at here there
  simp only [ExceptT.run, renderAll, here, there]
  cases rendered with
  | ok os =>
    have memory : bench.run.memory = also.run.memory := still.memory
    dsimp only
    exact ⟨by rw [memory], still.disks⟩
  | error e => exact ⟨rfl, still.disks⟩

theorem report_lockstep (one other : Log) :
    Lockstep (BesideSession (σ := σ) away d) (report one).run (report other).run :=
  fun _ _ beside => ⟨rfl, beside⟩

theorem afterwards_lockstep [Script.Parser] (mirror : Option Mirror) {paths : List Path}
    (avoids : ∀ p ∈ paths, ∀ q ∈ renderingPaths s d.cwd p, Avoids away d q)
    (prepared : Preparation) :
    Lockstep (BesideSession (σ := σ) away d) (afterwards s mirror paths prepared).run
      (afterwards s mirror paths prepared).run :=
  (report_lockstep _ _).bindExcept fun _ =>
    (renderAll_lockstep mirror prepared.vocabulary fun p member =>
      avoids p (mem_order.1 member)).bindExcept fun _ =>
        (report_lockstep _ _).bindExcept fun _ => .pure _

end Arabize.Batch
