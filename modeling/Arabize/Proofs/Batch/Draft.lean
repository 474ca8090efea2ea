import Arabize.Batch.Render
import Arabize.Proofs.Document.SharedMemory
import Arabize.Proofs.Project.Write

/-! # Rendering without the disk

A file is read, worked on, and written.  The work in between (`draft`) sees what was read and
the memory of the run, and nothing of the disk; `render_eq` says that there is nothing else to
a rendering.
-/

namespace Arabize.Batch

variable {s : Settings} {mirror : Option Mirror} {words : Vocabulary} {p : Path}

/-! ## Drafts -/

/-- What the work on a file comes to. -/
structure Draft where
  /-- The outcome of the file, once its rendition is written. -/
  outcome : Outcome
  /-- What is reported then. -/
  entry : LogEntry
  /-- The text of its rendition, if it has one. -/
  content : Option Text

def draftDocument [Script.Parser] (words : Vocabulary) (format : Format) (p : Path) (source : Text)
    (run : Run) : Except Failure Draft × Run :=
  match translateBy words format source run with
  | (.error e, run) => (.error (.document e), run)
  | (.ok r, run) =>
    if format = .json && !r.ok then
      (.ok ⟨⟨p, .document format, .failed, [], r.error⟩,
        ⟨.warning, "Failed to translate " ++ Path.baseName p ++ ": " ++ r.error⟩, none⟩, run)
    else if r.ok then
      (.ok ⟨⟨p, .document format, .rendered r.status, Path.rendition p, []⟩, renderedEntry p,
        some r.content⟩, run)
    else
      (.ok ⟨⟨p, .document format, .rendered .unreadable, Path.rendition p, r.error⟩,
        ⟨.warning, "Copied " ++ Path.baseName p ++ " unchanged: " ++ r.error⟩, some r.content⟩, run)

def draftStylesheet (mirror : Option Mirror) (p : Path) (source : Text) : Except Failure Draft :=
  match mirror with
  | none => .ok ⟨⟨p, .stylesheet, .skipped, [], []⟩,
      ⟨.info, "Skipped " ++ Path.baseName p ++ " (no CSS transformer configured)"⟩, none⟩
  | some f =>
    match f source with
    | .error e => .error (.style e)
    | .ok out => .ok ⟨⟨p, .stylesheet, .rendered .translated, Path.rendition p, []⟩,
        renderedEntry p, some out⟩

/-- The work on a file, given what was read of it. -/
def draft [Script.Parser] (mirror : Option Mirror) (words : Vocabulary) (p : Path) (source : Text)
    (run : Run) : Except Failure Draft × Run :=
  match FileKind.ofPath p with
  | .document format => draftDocument words format p source run
  | .stylesheet => (draftStylesheet mirror p source, run)
  | .unknown => (.error (.project (.unsupported p)), run)

/-- What is left to do with a draft: its rendition is written and its outcome reported. -/
def settle (s : Settings) (p : Path) (t : Draft) (b : Bench) : Except Failure Outcome × Bench :=
  match t.content with
  | none => (.ok t.outcome, ⟨b.disk, { b.run with log := b.run.log ++ [t.entry] }⟩)
  | some content =>
    match Project.write s.projectRoot (Path.rendition p) content b.disk with
    | (.ok (), disk) => (.ok t.outcome, ⟨disk, { b.run with log := b.run.log ++ [t.entry] }⟩)
    | (.error e, disk) => (.error (.project e), ⟨disk, b.run⟩)

/-! ## The parts of a rendering -/

theorem writeRendition_note (s : Settings) (p : Path) (content : Text) (o : Outcome) (e : LogEntry)
    (b : Bench) :
    (do writeRendition s (Path.rendition p) content; note e; return o : BenchStep Outcome) b =
      settle s p ⟨o, e, some content⟩ b := by
  rcases written : Project.write s.projectRoot (Path.rendition p) content b.disk with ⟨f | _, disk⟩
  · have failed : writeRendition s (Path.rendition p) content b =
        (.error (.project f), { b with disk }) := by
      simp only [writeRendition, written]
    rw [bind_of_error failed]
    simp only [settle, written]
  · have done : writeRendition s (Path.rendition p) content b = (.ok (), { b with disk }) := by
      simp only [writeRendition, written]
    rw [bind_of_ok done]
    simp only [settle, written]
    rfl

theorem renderDocument_eq [Script.Parser] (s : Settings) (words : Vocabulary) (format : Format)
    (p : Path) (source : Text) (b : Bench) :
    renderDocument s words format p source b =
      match draftDocument words format p source b.run with
      | (.error e, run) => (.error e, { b with run })
      | (.ok t, run) => settle s p t { b with run } := by
  unfold renderDocument draftDocument
  rcases run : translateBy words format source b.run with ⟨e | r, next⟩
  · have failed : translated words format source b =
        (.error (.document e), { b with run := next }) := by
      simp only [translated, run]
    rw [bind_of_error failed]
  · have done : translated words format source b = (.ok r, { b with run := next }) := by
      simp only [translated, run]
    rw [bind_of_ok done]
    by_cases failed : (format = .json && !r.ok) = true
    · simp only [failed, if_true]
      rfl
    · simp only [failed, Bool.false_eq_true, if_false]
      by_cases ok : r.ok = true
      · simp only [ok, if_true]
        exact writeRendition_note s p r.content _ _ _
      · simp only [ok, Bool.false_eq_true, if_false]
        exact writeRendition_note s p r.content _ _ _

theorem renderStylesheet_eq (s : Settings) (mirror : Option Mirror) (p : Path) (source : Text)
    (b : Bench) :
    renderStylesheet s mirror p source b =
      match draftStylesheet mirror p source with
      | .error e => (.error e, b)
      | .ok t => settle s p t b := by
  cases mirror with
  | none => rfl
  | some f =>
    unfold renderStylesheet draftStylesheet
    cases given : f source with
    | error e =>
      have failed : mirrored f source b = (.error (.style e), b) := by
        simp only [mirrored, given]
      simp only [given]
      exact bind_of_error failed
    | ok out =>
      have done : mirrored f source b = (.ok out, b) := by simp only [mirrored, given]
      simp only [given]
      exact (bind_of_ok done).trans (writeRendition_note s p out _ _ _)

/-- A rendering reads its file, works on what it read, and settles what that comes to. -/
theorem render_eq [Script.Parser] (s : Settings) (mirror : Option Mirror) (words : Vocabulary)
    (p : Path) (b : Bench) :
    render s mirror words p b =
      match Project.read b.disk s.projectRoot s.toolRoot p with
      | .error e => (.error (.project e), b)
      | .ok source =>
        match draft mirror words p source b.run with
        | (.error e, run) => (.error e, { b with run })
        | (.ok t, run) => settle s p t { b with run } := by
  unfold render
  cases found : Project.read b.disk s.projectRoot s.toolRoot p with
  | error e =>
    have failed : readSource s p b = (.error (.project e), b) := by simp only [readSource, found]
    exact bind_of_error failed
  | ok source =>
    have done : readSource s p b = (.ok source, b) := by simp only [readSource, found]
    rw [bind_of_ok done]
    unfold draft
    cases FileKind.ofPath p with
    | document format => exact renderDocument_eq s words format p source b
    | stylesheet =>
      refine (renderStylesheet_eq s mirror p source b).trans ?_
      dsimp only
      cases draftStylesheet mirror p source <;> rfl
    | unknown => rfl

/-! ## What a draft says -/

/-- A draft has a rendition exactly if its outcome names one. -/
theorem draft_outcome [Script.Parser] {source : Text} {run after : Run} {t : Draft}
    (given : draft mirror words p source run = (.ok t, after)) :
    match t.content with
    | none => t.outcome.verdict = .failed ∨ t.outcome.verdict = .skipped
    | some _ =>
      t.outcome.output = Path.rendition p ∧ ∃ status, t.outcome.verdict = .rendered status := by
  unfold draft at given
  split at given
  · unfold draftDocument at given
    split at given
    · cases given
    · split at given
      · cases given
        exact .inl rfl
      · split at given <;>
        · cases given
          exact ⟨rfl, _, rfl⟩
  · unfold draftStylesheet at given
    split at given
    · cases given
      exact .inr rfl
    · split at given
      · cases given
      · cases given
        exact ⟨rfl, _, rfl⟩
  · cases given

/-! ## Drafts under the same memory -/

/-- Runs that remember the same; what they have reported is their own. -/
def SameMemory (r s : Run) : Prop := r.memory = s.memory

theorem translateDocument_same [Script.Parser] (d : Lexicon) (format : Format) (source : Text) :
    Lockstep SameMemory (translateDocument d format source).run
      (translateDocument d format source).run := by
  rintro ⟨memory, log⟩ ⟨_, other⟩ ⟨rfl⟩
  simp only [ExceptT.run]
  cases format with
  | json =>
    simp only [translateDocument, translateData]
    split <;> exact ⟨rfl, rfl⟩
  | html =>
    simp only [translateDocument, translateMarkup]
    cases Markup.translatePage d true source memory
    exact ⟨rfl, rfl⟩
  | program dialect =>
    simp only [translateDocument, translateScript]
    split <;> exact ⟨rfl, rfl⟩

/-- The end of a visit takes nothing from its run. -/
theorem finish_same {α : Type} (r s : Run) (result : Except DocumentError α)
    (p : Stray.Progress) : (Stray.finish r result p).1 = (Stray.finish s result p).1 ∧
      SameMemory (Stray.finish r result p).2 (Stray.finish s result p).2 := by
  unfold Stray.finish
  dsimp only
  split <;> exact ⟨rfl, rfl⟩

theorem translateBy_same [Script.Parser] (words : Vocabulary) (format : Format) (source : Text) :
    Lockstep SameMemory (translateBy words format source).run
      (translateBy words format source).run := by
  unfold translateBy
  split
  · exact translateDocument_same words.lexicon format source
  · rintro ⟨memory, log⟩ ⟨_, other⟩ ⟨rfl⟩
    simp only [ExceptT.run]
    cases format with
    | json =>
      simp only [Stray.translateData, Stray.start]
      split
      · exact ⟨rfl, rfl⟩
      · exact ⟨rfl, rfl⟩
      · exact finish_same ⟨memory, log⟩ ⟨memory, other⟩ _ _
    | html =>
      simp only [Stray.translateMarkup, Stray.start]
      apply finish_same
    | program dialect =>
      simp only [Stray.translateScript, Stray.start]
      split
      · exact finish_same ⟨memory, log⟩ ⟨memory, other⟩ _ _
      · exact finish_same _ _ _ _

/-- The work on a file depends on what was read and remembered, and on nothing else. -/
theorem draft_same [Script.Parser] (mirror : Option Mirror) (words : Vocabulary) (p : Path)
    (source : Text) {r s : Run} (same : SameMemory r s) :
    (draft mirror words p source r).1 = (draft mirror words p source s).1 ∧
      SameMemory (draft mirror words p source r).2 (draft mirror words p source s).2 := by
  unfold draft
  split
  next format kind =>
    obtain ⟨result, run, other, here, there, still⟩ :=
      (translateBy_same words format source).runs same
    simp only [ExceptT.run] at here there
    simp only [draftDocument, here, there]
    cases result with
    | error e => exact ⟨rfl, still⟩
    | ok t =>
      dsimp only
      split
      · exact ⟨rfl, still⟩
      · split <;> exact ⟨rfl, still⟩
  · exact ⟨rfl, same⟩
  · exact ⟨rfl, same⟩

/-! ## Outcomes -/

theorem outcome_of_unreadable [Script.Parser] {e : ProjectError} {b : Bench}
    (found : Project.read b.disk s.projectRoot s.toolRoot p = .error e) :
    outcome s mirror words p b = (.ok (failedOutcome p (.project e)),
      ⟨b.disk, { b.run with log := b.run.log ++ [failedEntry p (.project e)] }⟩) := by
  simp only [outcome, render_eq, found]
  rfl

/-- A draft with a text that has an encoding is written, if its rendition is opened. -/
theorem outcome_of_opens [Script.Parser] {b : Bench} {source content : Text} {t : Draft} {run : Run}
    {made : Disk} {l : Location} {bytes : Bytes}
    (found : Project.read b.disk s.projectRoot s.toolRoot p = .ok source)
    (drafted : draft mirror words p source b.run = (.ok t, run)) (text : t.content = some content)
    (opens : Project.Opens s.projectRoot (Path.rendition p) b.disk made l)
    (encoded : Utf8.encode content = .ok bytes) :
    outcome s mirror words p b =
      (.ok t.outcome, ⟨made.put l (.file bytes), { run with log := run.log ++ [t.entry] }⟩) := by
  simp only [outcome, render_eq, found, drafted, settle, text, Project.write_of_opens opens,
    encoded]

/-- A draft whose rendition cannot be written has failed. -/
theorem outcome_of_refused [Script.Parser] {b : Bench} {source content : Text} {t : Draft}
    {run : Run} {e : ProjectError} {left : Disk}
    (found : Project.read b.disk s.projectRoot s.toolRoot p = .ok source)
    (drafted : draft mirror words p source b.run = (.ok t, run)) (text : t.content = some content)
    (refused : Project.write s.projectRoot (Path.rendition p) content b.disk = (.error e, left)) :
    outcome s mirror words p b = (.ok (failedOutcome p (.project e)),
      ⟨left, { run with log := run.log ++ [failedEntry p (.project e)] }⟩) := by
  simp only [outcome, render_eq, found, drafted, settle, text, refused]
  rfl

theorem outcomes_cons [Script.Parser] {paths : List Path} {b next last : Bench} {o : Outcome}
    {os : List Outcome} (here : outcome s mirror words p b = (.ok o, next))
    (behind : outcomes s mirror words paths next = (.ok os, last)) :
    outcomes s mirror words (p :: paths) b = (.ok (o :: os), last) :=
  (bind_of_ok here).trans ((bind_of_ok behind).trans rfl)

theorem outcomes_singleton [Script.Parser] {b last : Bench} {o : Outcome}
    (given : outcome s mirror words p b = (.ok o, last)) :
    outcomes s mirror words [p] b = (.ok [o], last) :=
  outcomes_cons given rfl

end Arabize.Batch
