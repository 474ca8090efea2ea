import Arabize.Batch.Run
import Arabize.Lexicon.Bundled
import Arabize.Proofs.Batch.Prepare
import Arabize.Proofs.Batch.Render
import Arabize.Proofs.Script.Grammar.Alignment

/-! # Runs that come to their report

A run reports one outcome for each of its files, whatever is wrong with them, unless a fault
that nothing is prepared for ends it.  There are only a few of these (`Ends`): before the
rendering a document that ends the survey, or words that cannot be asked for or kept, and in
the rendering a program that gives too large a number in an escape.
-/

namespace Arabize.Batch

variable {σ : Type} {s : Settings} {mirror : Option Mirror} {a : Assistant σ} {paths : List Path}
  {session : Session σ}

/-- Where the rendering of some files starts once their vocabulary is prepared. -/
def bench (paths : List Path) (ready : Session σ) : Bench :=
  ⟨ready.disk, [], ready.log ++
    [⟨.info, "Translating " ++ Text.ofNat (order paths).length ++ " file(s)..."⟩]⟩

/-- The faults that end a run before its report. -/
inductive Ends [Script.Parser] [Lexicon.Bundle] (s : Settings) (mirror : Option Mirror)
    (a : Assistant σ) (paths : List Path) (session : Session σ) : Prop
  /-- The vocabulary cannot be prepared. -/
  | preparation : Hinders s a paths session → Ends s mirror a paths session
  /-- A file spoils the rendering at its turn. -/
  | rendering {prepared : Preparation} {ready : Session σ} :
      prepare s a paths session = (.ok prepared, ready) →
      SpoilsInTurn s mirror prepared.vocabulary (order paths) (bench paths ready) →
      Ends s mirror a paths session

theorem renderAll_eq_ok [Script.Parser] {words : Vocabulary} {os : List Outcome}
    {memory : Phrase.Memory} {after : Session σ}
    (rendered : renderAll s mirror words paths session = (.ok (os, memory), after)) :
    ∃ last, outcomes s mirror words paths ⟨session.disk, [], session.log⟩ = (.ok os, last) := by
  unfold renderAll at rendered
  split at rendered
  next outcomes last done =>
    cases rendered
    exact ⟨last, done⟩
  · cases rendered

theorem renderAll_returns_iff [Script.Parser] {words : Vocabulary} (session : Session σ) :
    Returns (renderAll s mirror words paths) session ↔
      Returns (outcomes s mirror words paths) ⟨session.disk, [], session.log⟩ := by
  constructor
  · rintro ⟨⟨os, memory⟩, after, rendered⟩
    obtain ⟨last, done⟩ := renderAll_eq_ok rendered
    exact ⟨os, last, done⟩
  · rintro ⟨os, last, done⟩
    exact ⟨_, _, by simp only [renderAll, done]; rfl⟩

/-- With a parser that keeps what it promises, a run comes to its report unless one of these
    faults ends it, and a report holds one outcome for each path: in their order, but style
    sheets come last. -/
theorem run_completes [Script.Parser] [Lexicon.Bundle] (aligned : Script.Parser.IsAligned)
    (s : Settings) {mirror : Option Mirror} {a : Assistant σ}
    (total : ∀ f, mirror = some f → ∀ sheet, ∃ out, f sheet = .ok out) (plain : Plain a)
    (paths : List Path) (session : Session σ) :
    (Returns (run s mirror a paths) session ↔ ¬ Ends s mirror a paths session) ∧
      ∀ report after, run s mirror a paths session = (.ok report, after) →
        report.outcomes.map Outcome.path =
          (paths.filter fun p => !isStylesheet p) ++ paths.filter isStylesheet := by
  constructor
  · have prepares := prepare_returns_iff aligned s a paths session
    unfold run
    rcases prepared : prepare s a paths session with ⟨e | words, ready⟩
    · refine iff_of_false (not_returns_of_error (bind_of_error prepared)) fun free => ?_
      exact not_returns_of_error prepared (prepares.2 fun hinders => free (.preparation hinders))
    · have spoils := outcomes_returns_iff (s := s) total (prepare_plain plain prepared)
        (b := bench paths ready) (Phrase.sound_nil _) (order paths)
      rw [returns_bind_of_ok prepared, returns_bind_of_ok (m := inform _) rfl, returns_bind]
      constructor
      · rintro ⟨⟨os, memory⟩, after, rendered, _⟩ (hinders | ⟨again, inTurn⟩)
        · exact prepares.1 ⟨_, _, prepared⟩ hinders
        · rw [prepared] at again
          cases again
          obtain ⟨last, done⟩ := renderAll_eq_ok rendered
          exact spoils.1 ⟨os, last, done⟩ inTurn
      · intro free
        obtain ⟨result, after, rendered⟩ := (renderAll_returns_iff
          { ready with log := (bench paths ready).run.log }).2 (spoils.2 fun inTurn =>
            free (.rendering prepared inTurn))
        exact ⟨result, after, rendered, _, _, rfl⟩
  · intro report after completed
    obtain ⟨words, ready, prepared, completed⟩ := bind_eq_ok.1 completed
    obtain ⟨_, announced, informed, completed⟩ := bind_eq_ok.1 completed
    obtain ⟨⟨os, memory⟩, _, rendered, completed⟩ := bind_eq_ok.1 completed
    obtain ⟨_, _, _, completed⟩ := bind_eq_ok.1 completed
    cases completed
    -- The summary of a report cannot fail any more.
    obtain ⟨last, done⟩ := renderAll_eq_ok rendered
    exact outcomes_paths total (prepare_plain plain prepared) (Phrase.sound_nil _) done

section

open scoped Installed

/-- A style sheet and a page, in this order, with the service as the assistant while no wire
    leads to it. -/
theorem run_completes_swapped :
    let mirror : Mirror := fun sheet => .ok sheet
    let a : Assistant Wire := (⟨[], .int 120⟩ : Client).assistant ["key"]
    let sheet : Path := "/site/style.css"
    let page : Path := "/site/index.html"
    let session : Session Wire := ⟨⟨"/site", [(["site"], .directory),
      (["site", "style.css"], .file []), (["site", "index.html"], .file [0x48, 0x69])]⟩, [],
      ⟨[], .unreachable "no route", []⟩⟩
    (∀ f, some mirror = some f → ∀ t, ∃ out, f t = .ok out) ∧ Plain a ∧
    (Returns (run (Settings.default "/tool") (some mirror) a [sheet, page]) session ↔
      ¬ Ends (Settings.default "/tool") (some mirror) a [sheet, page] session) ∧
    ∀ report after,
      run (Settings.default "/tool") (some mirror) a [sheet, page] session = (.ok report, after) →
      report.outcomes.map Outcome.path = [page, sheet] := by
  intro mirror a sheet page session
  have total : ∀ f, some mirror = some f → ∀ t, ∃ out, f t = .ok out := by
    intro f same t
    cases same
    exact ⟨t, rfl⟩
  have plain : Plain a := plain_assistant _ _
  have completes := run_completes Installed.isAligned (Settings.default "/tool") total plain
    [sheet, page] session
  have swapped : (([sheet, page].filter fun p => !isStylesheet p) ++
      [sheet, page].filter isStylesheet) = [page, sheet] := by
    decide
  rw [swapped] at completes
  exact ⟨total, plain, completes⟩

end

end Arabize.Batch
