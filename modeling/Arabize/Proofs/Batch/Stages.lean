import Arabize.Proofs.Batch.Completion

/-! # The stages of a run

A run first finds the words that its files miss, then asks for them if it is to (`supply`), and
last renders the files (`afterwards`).  Finding them leaves the disk as it is.
-/

namespace Arabize

/-- The same settings for runs that do not ask. -/
def Settings.alone (s : Settings) : Settings := { s with asksService := false }

namespace Batch

variable {σ : Type} {s : Settings} {mirror : Option Mirror} {file : Path} {paths : List Path}

/-- The disk that is left when a hand-off file has come and gone. -/
def leftBehind (words : Missing.Words) (p : Path) (disk : Disk) : Disk :=
  (Store.deleteHandOff p (Store.saveHandOff words p disk).2).2

/-- Completes a lexicon, if words are missing and to be asked for. -/
def supply [Lexicon.Bundle] (s : Settings) (a : Assistant σ) (lexicon : Lexicon)
    (words : Missing.Words) : Step σ Preparation :=
  if words = [] then do
    inform "All words found in dictionary. No AI translation needed."
    return ⟨⟨lexicon, []⟩, 0, 0⟩
  else if s.asksService && a.isReady then complete s a lexicon words
  else do
    inform ("Found " ++ Text.ofNat words.length
      ++ " missing word(s). AI translation is disabled.")
    return ⟨⟨lexicon, []⟩, words.length, 0⟩

/-- Without asking, words that are missing stay so. -/
theorem supply_alone [Lexicon.Bundle] (s : Settings) (a : Assistant σ) (lexicon : Lexicon)
    (words : Missing.Words) (session : Session σ) : ∃ log, supply s.alone a lexicon words session =
      (.ok ⟨⟨lexicon, []⟩, words.length, 0⟩, { session with log }) := by
  have quiet : (s.alone.asksService && a.isReady) = false := rfl
  unfold supply
  rw [quiet]
  by_cases known : words = []
  · subst known
    exact ⟨_, rfl⟩
  · simp only [known, Bool.false_eq_true, if_false]
    exact ⟨_, rfl⟩

/-- What is reported up to the end of a survey. -/
def surveyLog [Lexicon.Bundle] (disk : Disk) (file : Path) (seen : Missing.Search) : Log :=
  (Store.lexicon disk file).2 ++ [⟨.info, "Pre-scanning files for missing words..."⟩] ++ seen.log

/-- A vocabulary is prepared by a survey and by supplying what it misses. -/
theorem prepare_eq [Script.Parser] [Lexicon.Bundle] (path : s.lexiconFile = .str file)
    (a : Assistant σ) (paths : List Path) (session : Session σ) :
    prepare s a paths session =
      match Project.survey session.disk s.projectRoot (Store.lexicon session.disk file).1 paths
        ⟨[], []⟩ with
      | (.error e, seen) => (.error (.document e),
          { session with log := session.log ++ surveyLog session.disk file seen })
      | (.ok (), seen) => supply s a (Store.lexicon session.disk file).1 seen.words
          { session with log := session.log ++ surveyLog session.disk file seen } := by
  have found : pathOf s.lexiconFile session = (.ok file, session) := by rw [path]; rfl
  have loaded : loadLexicon file session = (.ok (Store.lexicon session.disk file).1,
      { session with log := session.log ++ (Store.lexicon session.disk file).2 }) := rfl
  have informed : ∀ text log, inform text { session with log } =
      (.ok (), { session with log := log ++ [⟨.info, text⟩] }) := fun _ _ => rfl
  unfold prepare
  rw [bind_of_ok found, bind_of_ok loaded, bind_of_ok (informed _ _)]
  rcases surveyed : Project.survey session.disk s.projectRoot (Store.lexicon session.disk file).1
    paths ⟨[], []⟩ with ⟨e | _, seen⟩
  · have searched : ∀ log, collectMissing s.projectRoot (Store.lexicon session.disk file).1 paths
        { session with log } =
          (.error (.document e), { session with log := log ++ seen.log }) := by
      intro log
      simp only [collectMissing, surveyed]
    rw [bind_of_error (searched _)]
    simp only [surveyLog, List.append_assoc]
  · have searched : ∀ log, collectMissing s.projectRoot (Store.lexicon session.disk file).1 paths
        { session with log } = (.ok seen.words, { session with log := log ++ seen.log }) := by
      intro log
      simp only [collectMissing, surveyed]
    rw [bind_of_ok (searched _)]
    simp only [surveyLog, List.append_assoc]
    rfl

/-- What has been prepared had a survey that went through. -/
theorem searchable_of_prepare [Script.Parser] [Lexicon.Bundle] (path : s.lexiconFile = .str file)
    {prepared : Preparation}
    {after : Session σ} (prepares : prepare s a paths session = (.ok prepared, after)) :
    ∀ p ∈ paths, Project.Searchable session.disk s.projectRoot p := by
  refine (Project.survey_returns_iff _ _ (Store.lexicon session.disk file).1 _ ⟨[], []⟩).1 ?_
  rw [prepare_eq path] at prepares
  rcases surveyed : Project.survey session.disk s.projectRoot
    (Store.lexicon session.disk file).1 paths ⟨[], []⟩ with ⟨e | _, seen⟩ <;>
    rw [surveyed] at prepares
  · cases prepares
  · exact ⟨_, _, surveyed⟩

/-- A run that does not ask has the words that were stored. -/
theorem prepare_alone [Script.Parser] [Lexicon.Bundle] (path : s.lexiconFile = .str file)
    (a : Assistant σ) (session : Session σ)
    (passes : ∀ p ∈ paths, Project.Searchable session.disk s.projectRoot p) :
    ∃ prepared log, prepare s.alone a paths session = (.ok prepared, { session with log }) ∧
      prepared.vocabulary = ⟨(Store.lexicon session.disk file).1, []⟩ := by
  obtain ⟨_, seen, surveyed⟩ := (Project.survey_returns_iff session.disk s.projectRoot
    (Store.lexicon session.disk file).1 paths ⟨[], []⟩).2 passes
  have also : Project.survey session.disk s.alone.projectRoot
      (Store.lexicon session.disk file).1 paths ⟨[], []⟩ = (.ok (), seen) := surveyed
  rw [prepare_eq (s := s.alone) path, also]
  obtain ⟨log, supplied⟩ := supply_alone s a (Store.lexicon session.disk file).1 seen.words
    { session with log := session.log ++ surveyLog session.disk file seen }
  exact ⟨_, log, supplied, rfl⟩

theorem prepare_of_unnamed [Script.Parser] [Lexicon.Bundle]
    (unnamed : ∀ file, s.lexiconFile ≠ .str file) (a : Assistant σ)
    (paths : List Path) (session : Session σ) :
    prepare s a paths session = (.error (.notPath s.lexiconFile), session) := by
  have failed : pathOf s.lexiconFile session = (.error (.notPath s.lexiconFile), session) := by
    unfold pathOf
    split
    next file path => exact absurd path (unnamed file)
    · rfl
  exact bind_of_error failed

/-! ## The disk that is prepared -/

section Disk

variable (a : Assistant σ) (session : Session σ)

theorem clearHandOff_disk (p : Path) :
    (clearHandOff p session).2.disk = (Store.deleteHandOff p session.disk).2 := by
  unfold clearHandOff
  rcases Store.deleteHandOff p session.disk with ⟨e | _, disk⟩
  · dsimp only
    split <;> rfl
  · rfl

theorem handOver_disk (words : Missing.Words) (p : Path) :
    (handOver a words p session).2.disk = (Store.saveHandOff words p session.disk).2 := by
  unfold handOver
  rcases Store.saveHandOff words p session.disk with ⟨e | _, disk⟩ <;> rfl

/-- Whatever an assistant says, the hand-off file has come and gone. -/
theorem fetchAt_disk (words : Missing.Words) (p : Path) :
    (fetchAt a words p session).2.disk = leftBehind words p session.disk := by
  have saved := handOver_disk a session words p
  unfold fetchAt
  rcases answered : handOver a words p session with ⟨answer, asked⟩
  rw [answered] at saved
  rw [bind_of_ok (a := answer) (t := asked) (by simp only [answered]), leftBehind, ← saved]
  cases answer with
  | error why =>
    dsimp only
    rw [bind_of_ok (m := report [askingFailed why]) rfl]
    have cleared := clearHandOff_disk { asked with log := asked.log ++ [askingFailed why] } p
    rcases clearing : clearHandOff p { asked with log := asked.log ++ [askingFailed why] } with
      ⟨e | _, after⟩ <;> rw [clearing] at cleared
    · rw [bind_of_error clearing]
      exact cleared
    · rw [bind_of_ok clearing]
      exact cleared
  | ok translations =>
    dsimp only
    have cleared := clearHandOff_disk asked p
    rcases clearing : clearHandOff p asked with ⟨e | _, after⟩ <;> rw [clearing] at cleared
    · rw [bind_of_error clearing]
      exact cleared
    · rw [bind_of_ok clearing]
      exact cleared

theorem keep_disk (file : Path) (translations : Mapping Json) :
    (keep file translations session).2.disk =
      (Store.write file (merged session.disk file translations) session.disk).2 := by
  unfold keep Store.append merged
  dsimp only
  rcases Store.write file ((Json.textValues (Store.load session.disk file).1).update translations)
    session.disk with ⟨e | _, disk⟩
  · dsimp only
    split <;> rfl
  · rfl

/-- The disk is left as it is, or the hand-off file has come and gone, and then the store of
    fetched words may have been written. -/
def Prepared (s : Settings) (d c : Disk) : Prop :=
  c = d ∨ ∃ h words, s.handOffFile = .str h ∧ (c = leftBehind words h d ∨
    ∃ file m, s.lexiconFile = .str file ∧ c = (Store.write file m (leftBehind words h d)).2)

theorem complete_disk [Lexicon.Bundle] (lexicon : Lexicon) (words : Missing.Words) :
    Prepared s session.disk (complete s a lexicon words session).2.disk := by
  unfold complete
  rw [bind_of_ok (m := inform _) rfl]
  generalize session.log ++ [_] = told
  cases handOff : s.handOffFile with
  | str h =>
    have left := fetchAt_disk a { session with log := told } words h
    rw [fetch]
    rcases fetched : fetchAt a words h { session with log := told } with
      ⟨e | translations, after⟩ <;> rw [fetched] at left
    · rw [bind_of_error fetched]
      exact .inr ⟨h, words, handOff, .inl left⟩
    · rw [bind_of_ok fetched]
      split
      · exact .inr ⟨h, words, handOff, .inl left⟩
      · cases path : s.lexiconFile with
        | str file =>
          have found : pathOf (.str file) after = (.ok file, after) := rfl
          have kept := keep_disk after file translations
          rw [bind_of_ok found]
          rcases keeping : keep file translations after with ⟨e | _, last⟩ <;>
            rw [keeping, show after.disk = _ from left] at kept
          · rw [bind_of_error keeping]
            exact .inr ⟨h, words, handOff, .inr ⟨file, _, path, kept⟩⟩
          · rw [bind_of_ok keeping]
            exact .inr ⟨h, words, handOff, .inr ⟨file, _, path, kept⟩⟩
        | _ => exact .inr ⟨h, words, handOff, .inl left⟩
  | _ => exact .inl rfl

theorem prepare_disk [Script.Parser] [Lexicon.Bundle] (paths : List Path) :
    Prepared s session.disk (prepare s a paths session).2.disk := by
  by_cases named : ∃ file, s.lexiconFile = .str file
  · obtain ⟨file, path⟩ := named
    rw [prepare_eq path]
    rcases Project.survey session.disk s.projectRoot (Store.lexicon session.disk file).1 paths
      ⟨[], []⟩ with ⟨e | _, seen⟩
    · exact .inl rfl
    · dsimp only
      unfold supply
      split
      · exact .inl rfl
      · split
        · exact complete_disk a _ _ _
        · exact .inl rfl
  · rw [prepare_of_unnamed fun file path => named ⟨file, path⟩]
    exact .inl rfl

end Disk

/-! ## What follows -/

/-- What a run does once its vocabulary is prepared. -/
def afterwards [Script.Parser] (s : Settings) (mirror : Option Mirror) (paths : List Path)
    (prepared : Preparation) : Step σ Report := do
  inform ("Translating " ++ Text.ofNat (order paths).length ++ " file(s)...")
  let (outcomes, memory) ← renderAll s mirror prepared.vocabulary (order paths)
  let r : Report := ⟨outcomes, prepared.missing, prepared.fetched, memory.length⟩
  report (r.summaryLines.map fun line => ⟨.info, line⟩)
  return r

theorem run_eq [Script.Parser] [Lexicon.Bundle] (s : Settings) (mirror : Option Mirror)
    (a : Assistant σ) (paths : List Path) : run s mirror a paths =
      (do let prepared ← prepare s a paths; afterwards s mirror paths prepared) :=
  rfl

/-- The end of a run is a rendering and the report on it. -/
theorem afterwards_eq [Script.Parser] (prepared : Preparation) (session : Session σ) :
    afterwards s mirror paths prepared session =
      match outcomes s mirror prepared.vocabulary (order paths) (bench paths session) with
      | (.error e, last) => (.error e, ⟨last.disk, last.run.log, session.peer⟩)
      | (.ok os, last) =>
        let r : Report := ⟨os, prepared.missing, prepared.fetched, last.run.memory.length⟩
        (.ok r, ⟨last.disk, last.run.log ++ r.summaryLines.map fun line => ⟨.info, line⟩,
          session.peer⟩) := by
  have announced : (inform ("Translating " ++ Text.ofNat (order paths).length ++ " file(s)...") :
      Step σ Unit) session = (.ok (), { session with log := (bench paths session).run.log }) := rfl
  unfold afterwards
  rw [bind_of_ok announced]
  rcases rendered : outcomes s mirror prepared.vocabulary (order paths) (bench paths session) with
    ⟨e | os, last⟩
  · have failed : renderAll s mirror prepared.vocabulary (order paths)
        { session with log := (bench paths session).run.log } =
          (.error e, { session with disk := last.disk, log := last.run.log }) := by
      unfold renderAll
      rw [show outcomes s mirror prepared.vocabulary (order paths)
        ⟨session.disk, [], (bench paths session).run.log⟩ = _ from rendered]
    rw [bind_of_error failed]
  · have done : renderAll s mirror prepared.vocabulary (order paths)
        { session with log := (bench paths session).run.log } =
          (.ok (os, last.run.memory), { session with disk := last.disk, log := last.run.log }) := by
      unfold renderAll
      rw [show outcomes s mirror prepared.vocabulary (order paths)
        ⟨session.disk, [], (bench paths session).run.log⟩ = _ from rendered]
    rw [bind_of_ok done]
    rfl

theorem afterwards_eq_ok_iff [Script.Parser] {prepared : Preparation} {session after : Session σ}
    {result : Report} :
    afterwards s mirror paths prepared session = (.ok result, after) ↔
      ∃ os last, outcomes s mirror prepared.vocabulary (order paths) (bench paths session) =
          (.ok os, last) ∧
        result = ⟨os, prepared.missing, prepared.fetched, last.run.memory.length⟩ ∧
        after = ⟨last.disk, last.run.log ++ result.summaryLines.map fun line => ⟨.info, line⟩,
          session.peer⟩ := by
  rw [afterwards_eq]
  rcases outcomes s mirror prepared.vocabulary (order paths) (bench paths session) with
    ⟨e | os, last⟩
  · refine iff_of_false (fun given => ?_) ?_
    · cases given
    · rintro ⟨_, _, same, _⟩
      cases same
  · constructor
    · intro given
      cases given
      exact ⟨os, last, rfl, rfl, rfl⟩
    · rintro ⟨_, _, same, rfl, rfl⟩
      cases same
      rfl

theorem afterwards_disk [Script.Parser] (prepared : Preparation) (session : Session σ) :
    (afterwards s mirror paths prepared session).2.disk =
      (outcomes s mirror prepared.vocabulary (order paths) (bench paths session)).2.disk := by
  rw [afterwards_eq]
  rcases outcomes s mirror prepared.vocabulary (order paths) (bench paths session) with
    ⟨e | os, last⟩ <;> rfl

/-- The rendering does not know whether anything was asked. -/
theorem outcomes_alone [Script.Parser] (s : Settings) (mirror : Option Mirror) (words : Vocabulary)
    (paths : List Path) : outcomes s.alone mirror words paths = outcomes s mirror words paths := by
  induction paths with
  | nil => rfl
  | cons p rest ih =>
    have here : outcome s.alone mirror words p = outcome s mirror words p := rfl
    rw [outcomes, outcomes, here, ih]

theorem afterwards_alone [Script.Parser] (s : Settings) (mirror : Option Mirror) (paths : List Path)
    (prepared : Preparation) : (afterwards s.alone mirror paths prepared : Step σ Report) =
      afterwards s mirror paths prepared := by
  unfold afterwards renderAll
  rw [outcomes_alone]

/-- A run that does not ask ends with the rendering of its files under the stored words. -/
theorem runs_alone [Script.Parser] [Lexicon.Bundle] (path : s.lexiconFile = .str file)
    (a : Assistant σ) (session : Session σ)
    (passes : ∀ p ∈ paths, Project.Searchable session.disk s.projectRoot p) {os : List Outcome}
    (rendered : ∀ log, ∃ last, outcomes s mirror ⟨(Store.lexicon session.disk file).1, []⟩
      (order paths) ⟨session.disk, [], log⟩ = (.ok os, last)) :
    ∃ report after, run s.alone mirror a paths session = (.ok report, after) ∧
      report.outcomes = os := by
  obtain ⟨prepared, log, prepares, vocabulary⟩ := prepare_alone path a session passes
  obtain ⟨last, done⟩ := rendered (bench paths { session with log }).run.log
  rw [← vocabulary] at done
  rw [run_eq, bind_of_ok prepares, afterwards_alone,
    afterwards_eq_ok_iff.2 ⟨os, last, done, rfl, rfl⟩]
  exact ⟨_, _, rfl, rfl⟩

theorem mem_order {p : Path} {paths : List Path} : p ∈ order paths ↔ p ∈ paths := by
  simp only [order, List.mem_append, List.mem_filter]
  cases isStylesheet p <;> simp

end Batch

end Arabize
