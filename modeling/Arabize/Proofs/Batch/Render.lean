import Arabize.Batch.Render
import Arabize.Proofs.Document.Faults
import Arabize.Proofs.Project.Survey

/-! # Rendering file after file

A file that is rendered has an outcome of its own, whatever goes wrong with it, unless the
fault of its document is one that the run is not prepared for.  What a file holds is what it
holds at its turn: the renditions of the files before it are written by then.
-/

namespace Arabize.Batch

open Phrase (Sound)

/-! ## Steps that settle a file -/

/-- A step that remembers nothing and settles a file: it gives the outcome of the file, or
    fails by a fault that is expected. -/
def Settles (p : Path) (step : BenchStep Outcome) : Prop :=
  ∀ b, (step b).2.run.memory = b.run.memory ∧ (∀ o, (step b).1 = .ok o → o.path = p) ∧
    ∀ e, (step b).1 = .error e → e.isExpected = true

variable {p : Path}

theorem settles_return {o : Outcome} (path : o.path = p) : Settles p (return o) := by
  refine fun b => ⟨rfl, fun same given => ?_, fun e failed => ?_⟩
  · cases given
    exact path
  · cases failed

theorem Settles.note {next : Unit → BenchStep Outcome} (settles : Settles p (next ()))
    (e : LogEntry) : Settles p (note e >>= next) := by
  intro b
  rw [bind_of_ok (f := next) (rfl : Batch.note e b = (.ok (), _))]
  exact settles _

theorem Settles.write {next : Unit → BenchStep Outcome} (settles : Settles p (next ()))
    (s : Settings) (target : Path) (content : Text) :
    Settles p (writeRendition s target content >>= next) := by
  intro b
  rcases written : Project.write s.projectRoot target content b.disk with ⟨e | _, disk⟩
  · have failed : writeRendition s target content b = (.error (.project e), { b with disk }) := by
      simp only [writeRendition, written]
    rw [bind_of_error failed]
    refine ⟨rfl, fun o given => (by cases given), fun f same => ?_⟩
    cases same
    rfl
  · have done : writeRendition s target content b = (.ok (), { b with disk }) := by
      simp only [writeRendition, written]
    rw [bind_of_ok done]
    exact settles _

theorem renderStylesheet_settles (s : Settings) {mirror : Option Mirror}
    (total : ∀ f, mirror = some f → ∀ sheet, ∃ out, f sheet = .ok out) (p : Path)
    (content : Text) : Settles p (renderStylesheet s mirror p content) := by
  cases mirror with
  | none => exact (settles_return rfl).note _
  | some f =>
    obtain ⟨out, given⟩ := total f rfl content
    intro b
    have done : mirrored f content b = (.ok out, b) := by simp only [mirrored, given]
    rw [renderStylesheet, bind_of_ok done]
    exact ((settles_return rfl).note _).write s _ _ b

/-! ## Rendering one file -/

/-- A file with a document whose fault ends the rendering. -/
def Spoils [Script.Parser] (s : Settings) (d : Lexicon) (disk : Disk) (p : Path) : Prop :=
  ∃ format content, FileKind.ofPath p = .document format ∧
    Project.read disk s.projectRoot s.toolRoot p = .ok content ∧
    Arabize.Spoils d format content

/-- What rendering a file comes to: a sound memory, the outcome of the file if there is one,
    and a fault that is not expected in one case only. -/
structure Handles (d : Lexicon) (p : Path) (spoils : Prop)
    (result : Except Failure Outcome × Bench) : Prop where
  sound : Sound d result.2.run.memory
  path : ∀ o, result.1 = .ok o → o.path = p
  unexpected : (∃ e, result.1 = .error e ∧ e.isExpected = false) ↔ spoils

theorem Settles.handles {step : BenchStep Outcome} (settles : Settles p step) {d : Lexicon}
    {b : Bench} (sound : Sound d b.run.memory) {spoils : Prop} (spared : ¬ spoils) :
    Handles d p spoils (step b) := by
  obtain ⟨memory, path, expected⟩ := settles b
  refine ⟨memory ▸ sound, path, iff_of_false ?_ spared⟩
  rintro ⟨e, failed, unexpected⟩
  rw [expected e failed] at unexpected
  cases unexpected

variable {s : Settings} {mirror : Option Mirror} {words : Vocabulary} {b : Bench}

theorem translateDocument_sound [Script.Parser] {d : Lexicon} {run : Run}
    (sound : Sound d run.memory) (format : Format) (content : Text) :
    Sound d (translateDocument d format content run).2.memory := by
  have grown := (translateNamed_sound sound (content, format.name)).2
  rw [translateNamed, Missing.ofName?_name] at grown
  exact grown.sound

theorem renderDocument_handles [Script.Parser] (plain : words.strays = [])
    (sound : Sound words.lexicon b.run.memory) (format : Format) (p : Path) {content : Text}
    (encodable : Utf8.Encodable content) :
    Handles words.lexicon p (Arabize.Spoils words.lexicon format content)
      (renderDocument s words format p content b) := by
  have unexpected := translateDocument_unexpected_iff encodable sound format
  have after := translateDocument_sound sound format content
  -- Without strays the vocabulary is its lexicon.
  have same : translateBy words format content =
      translateDocument words.lexicon format content := by
    unfold translateBy
    rw [plain]
    rfl
  rcases run : translateDocument words.lexicon format content b.run with ⟨e | r, next⟩
  · rw [run] at unexpected after
    have failed : translated words format content b =
        (.error (.document e), { b with run := next }) := by
      simp only [translated, same, run]
    rw [renderDocument, bind_of_error failed]
    refine ⟨after, fun o given => (by cases given), ?_⟩
    rw [← unexpected]
    simp [Failure.isExpected]
  · rw [run] at unexpected after
    have done : translated words format content b = (.ok r, { b with run := next }) := by
      simp only [translated, same, run]
    have spared : ¬ Arabize.Spoils words.lexicon format content := by
      rw [← unexpected]
      simp
    rw [renderDocument, bind_of_ok done]
    refine Settles.handles ?_ after spared
    split
    · exact (settles_return rfl).note _
    · refine Settles.write ?_ s _ _
      split
      · exact (settles_return rfl).note _
      · exact (settles_return rfl).note _

theorem render_handles [Script.Parser]
    (total : ∀ f, mirror = some f → ∀ sheet, ∃ out, f sheet = .ok out)
    (plain : words.strays = []) (sound : Sound words.lexicon b.run.memory) (p : Path) :
    Handles words.lexicon p (Spoils s words.lexicon b.disk p) (render s mirror words p b) := by
  cases found : Project.read b.disk s.projectRoot s.toolRoot p with
  | error e =>
    have failed : readSource s p b = (.error (.project e), b) := by simp only [readSource, found]
    rw [render, bind_of_error failed]
    -- A file that cannot be read is at fault as expected, and holds no document.
    refine ⟨sound, fun o given => (by cases given), iff_of_false ?_ ?_⟩
    · rintro ⟨f, same, unexpected⟩
      cases same
      cases unexpected
    · rintro ⟨format, content, _, given, _⟩
      rw [found] at given
      cases given
  | ok content =>
    have done : readSource s p b = (.ok content, b) := by simp only [readSource, found]
    rw [render, bind_of_ok done, Spoils, found]
    cases FileKind.ofPath p with
    | document format =>
      have handles := renderDocument_handles (s := s) plain sound format p
        (Project.encodable_read found)
      simpa using handles
    | stylesheet => exact (renderStylesheet_settles s total p content).handles sound (by simp)
    | unknown =>
      refine ⟨sound, fun o given => (by cases given), iff_of_false ?_ (by simp)⟩
      rintro ⟨f, same, unexpected⟩
      cases same
      cases unexpected

theorem outcome_handles [Script.Parser]
    (total : ∀ f, mirror = some f → ∀ sheet, ∃ out, f sheet = .ok out)
    (plain : words.strays = []) (sound : Sound words.lexicon b.run.memory) (p : Path) :
    Handles words.lexicon p (Spoils s words.lexicon b.disk p) (outcome s mirror words p b) := by
  have handles := render_handles (s := s) total plain sound p
  unfold outcome
  rcases rendered : render s mirror words p b with ⟨e | o, after⟩
  · rw [rendered] at handles
    -- An expected fault is reported and becomes the outcome, any other goes on.
    by_cases expected : e.isExpected = true
    · dsimp only
      rw [if_pos expected]
      refine ⟨handles.sound, fun o given => ?_, ?_⟩
      · cases given
        rfl
      · rw [← handles.unexpected]
        refine iff_of_false ?_ ?_
        · rintro ⟨f, failed, _⟩
          cases failed
        · rintro ⟨f, same, unexpected⟩
          cases same
          rw [expected] at unexpected
          cases unexpected
    · dsimp only
      rw [if_neg expected]
      exact handles
  · rw [rendered] at handles
    exact handles

theorem outcome_error [Script.Parser] {e : Failure}
    (failed : (outcome s mirror words p b).1 = .error e) : e.isExpected = false := by
  unfold outcome at failed
  split at failed
  · cases failed
  · split at failed
    · cases failed
    next unexpected =>
      cases failed
      exact Bool.eq_false_iff.2 unexpected

/-- A file has an outcome unless it spoils the rendering. -/
theorem outcome_returns_iff [Script.Parser]
    (total : ∀ f, mirror = some f → ∀ sheet, ∃ out, f sheet = .ok out)
    (plain : words.strays = []) (sound : Sound words.lexicon b.run.memory) (p : Path) :
    Returns (outcome s mirror words p) b ↔ ¬ Spoils s words.lexicon b.disk p := by
  rw [← (outcome_handles total plain sound p).unexpected, returns_iff]
  constructor
  · rintro never ⟨e, failed, _⟩
    exact never e failed
  · intro spared e failed
    exact spared ⟨e, failed, outcome_error failed⟩

/-! ## Rendering a row of files -/

theorem outcomes_paths [Script.Parser]
    (total : ∀ f, mirror = some f → ∀ sheet, ∃ out, f sheet = .ok out)
    (plain : words.strays = []) {paths : List Path} {os : List Outcome} {after : Bench}
    (sound : Sound words.lexicon b.run.memory)
    (rendered : outcomes s mirror words paths b = (.ok os, after)) :
    os.map Outcome.path = paths := by
  induction paths generalizing b os after with
  | nil =>
    cases rendered
    rfl
  | cons p rest ih =>
    have handles := outcome_handles (s := s) total plain sound p
    rw [outcomes] at rendered
    rcases here : outcome s mirror words p b with ⟨e | o, next⟩
    · rw [bind_of_error here] at rendered
      cases rendered
    · rw [here] at handles
      rw [bind_of_ok here] at rendered
      rcases behind : outcomes s mirror words rest next with ⟨e | more, last⟩
      · rw [bind_of_error behind] at rendered
        cases rendered
      · rw [bind_of_ok behind] at rendered
        cases rendered
        rw [List.map_cons, handles.path o rfl, ih handles.sound behind]

/-- A file of a row spoils the rendering at its turn. -/
def SpoilsInTurn [Script.Parser] (s : Settings) (mirror : Option Mirror) (words : Vocabulary)
    (paths : List Path) (b : Bench) : Prop :=
  ∃ before p after, paths = before ++ p :: after ∧
    ∃ os turn, outcomes s mirror words before b = (.ok os, turn) ∧
      Spoils s words.lexicon turn.disk p

theorem not_spoilsInTurn_nil [Script.Parser] : ¬ SpoilsInTurn s mirror words [] b := by
  rintro ⟨before, p, after, empty, _⟩
  simp at empty

theorem spoilsInTurn_cons [Script.Parser] {rest : List Path} :
    SpoilsInTurn s mirror words (p :: rest) b ↔
      Spoils s words.lexicon b.disk p ∨
        ∃ o next, outcome s mirror words p b = (.ok o, next) ∧
          SpoilsInTurn s mirror words rest next := by
  constructor
  · rintro ⟨before, q, after, same, os, turn, rendered, spoils⟩
    cases before with
    | nil =>
      rw [List.nil_append, List.cons.injEq] at same
      cases rendered
      exact .inl (same.1 ▸ spoils)
    | cons first before =>
      rw [List.cons_append, List.cons.injEq] at same
      obtain ⟨rfl, rfl⟩ := same
      rw [outcomes] at rendered
      rcases here : outcome s mirror words p b with ⟨e | o, next⟩
      · rw [bind_of_error here] at rendered
        cases rendered
      · rw [bind_of_ok here] at rendered
        rcases behind : outcomes s mirror words before next with ⟨e | more, last⟩
        · rw [bind_of_error behind] at rendered
          cases rendered
        · rw [bind_of_ok behind] at rendered
          cases rendered
          exact .inr ⟨o, next, rfl, before, q, after, rfl, more, turn, behind, spoils⟩
  · rintro (spoils | ⟨o, next, here, before, q, after, rfl, os, turn, rendered, spoils⟩)
    · exact ⟨[], p, rest, rfl, [], b, rfl, spoils⟩
    · refine ⟨p :: before, q, after, rfl, o :: os, turn, ?_, spoils⟩
      rw [outcomes, bind_of_ok here, bind_of_ok rendered]
      rfl

/-- A row of files is rendered to its end unless one of them spoils that at its turn. -/
theorem outcomes_returns_iff [Script.Parser]
    (total : ∀ f, mirror = some f → ∀ sheet, ∃ out, f sheet = .ok out)
    (plain : words.strays = []) (sound : Sound words.lexicon b.run.memory) (paths : List Path) :
    Returns (outcomes s mirror words paths) b ↔ ¬ SpoilsInTurn s mirror words paths b := by
  -- On the row: the memory stays sound, so each file is at its turn as it is alone.
  induction paths generalizing b with
  | nil => exact iff_of_true (returns_pure _ _) not_spoilsInTurn_nil
  | cons p rest ih =>
    have handles := outcome_handles (s := s) total plain sound p
    have first := outcome_returns_iff (s := s) total plain sound p
    rw [spoilsInTurn_cons, not_or, ← first, outcomes]
    rcases here : outcome s mirror words p b with ⟨e | o, next⟩
    · exact iff_of_false (not_returns_of_error (bind_of_error here))
        fun both => not_returns_of_error here both.1
    · rw [here] at handles
      have given : Returns (outcome s mirror words p) b := ⟨o, next, here⟩
      rw [returns_bind_of_ok here, and_iff_right given]
      have later : (∃ o' next', ((Except.ok o, next) : Except Failure Outcome × Bench) =
          (.ok o', next') ∧ SpoilsInTurn s mirror words rest next') ↔
            SpoilsInTurn s mirror words rest next := by
        constructor
        · rintro ⟨_, _, same, spoils⟩
          cases same
          exact spoils
        · exact fun spoils => ⟨o, next, rfl, spoils⟩
      rw [later, ← ih handles.sound, returns_bind]
      constructor
      · rintro ⟨os, last, behind, _⟩
        exact ⟨os, last, behind⟩
      · rintro ⟨os, last, behind⟩
        exact ⟨os, last, behind, returns_pure _ _⟩

end Arabize.Batch
