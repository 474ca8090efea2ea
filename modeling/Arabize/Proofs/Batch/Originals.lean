import Arabize.Lexicon.Bundled
import Arabize.Proofs.Batch.Containment
import Arabize.Proofs.Batch.Stages
import Arabize.Proofs.Lexicon.Frame
import Arabize.Proofs.Project.Kind
import Arabize.Script.Grammar.Reading

/-! # What becomes of the sources of a run

A run writes the hand-off file and takes it away again, it writes the store of fetched words, and
it opens one rendition after the other.  A source stays as it was unless one of these is written
where the source is.

A rendition has another name than any source, so the one is never opened where the other is as
long as both are reached by their own names.  A name that is a link can break that: nothing is
checked of the rendition but that it lies in the project.
-/

namespace Arabize.Batch

open Disk (Names SameAt)
open Project (ReadsAt)

variable {σ : Type} {s : Settings} {mirror : Option Mirror} {words : Vocabulary} {p q : Path}
  {paths : List Path} {b turn : Bench} {l : Location}

/-! ## The disk that is prepared -/

section Prepare

variable (a : Assistant σ) (session : Session σ)

/-- No file changes until the vocabulary is prepared, but those that the paths of the hand-off file
    and of the store of fetched words name. -/
theorem prepare_same [Script.Parser] [Lexicon.Bundle]
    (handOff : ∀ h, s.handOffFile = .str h → ¬ Names session.disk h l)
    (lexicon : ∀ file, s.lexiconFile = .str file →
      ¬ Names (prepare s a paths session).2.disk file l) :
    SameAt session.disk (prepare s a paths session).2.disk l := by
  rcases prepare_disk a session paths with same | ⟨h, words, given, same | ⟨file, m, path, same⟩⟩
  · rw [same]
    exact .refl _ l
  · rw [same]
    exact Store.handOff_same words (handOff h given)
  · have other := lexicon file path
    rw [same] at other ⊢
    obtain ⟨cwd, links⟩ := Store.write_links file m (leftBehind words h session.disk)
    refine (Store.handOff_same words (handOff h given)).trans (Store.write_same m fun names => ?_)
    exact other (names.of_link? cwd links)

/-- Links stay as they are until then, but for one that stood in the place of the hand-off file. -/
theorem prepare_links [Script.Parser] [Lexicon.Bundle] (paths : List Path) :
    (prepare s a paths session).2.disk.cwd = session.disk.cwd ∧
    ∀ k, (prepare s a paths session).2.disk.link? k = session.disk.link? k ∨
      (prepare s a paths session).2.disk.link? k = none := by
  have left : ∀ words h, (leftBehind words h session.disk).cwd = session.disk.cwd ∧
      ∀ k, (leftBehind words h session.disk).link? k = session.disk.link? k ∨
        (leftBehind words h session.disk).link? k = none := by
    intro words h
    obtain ⟨cwd, links⟩ := Store.write_links h
      (Mapping.ofPairs ((Text.sort words).map fun w => (w, .str []))) session.disk
    obtain ⟨same, removed⟩ := Store.deleteHandOff_links h (Store.saveHandOff words h session.disk).2
    exact ⟨same.trans cwd, fun k => (removed k).imp_left fun kept => kept.trans (links k)⟩
  rcases prepare_disk a session paths with same | ⟨h, words, _, same | ⟨file, m, _, same⟩⟩
  · rw [same]
    exact ⟨rfl, fun k => .inl rfl⟩
  · rw [same]
    exact left words h
  · rw [same]
    obtain ⟨cwd, links⟩ := Store.write_links file m (leftBehind words h session.disk)
    obtain ⟨same, removed⟩ := left words h
    refine ⟨cwd.trans same, fun k => ?_⟩
    rw [links k]
    exact removed k

end Prepare

/-! ## The files that are rendered -/

/-- A file of a row has its turn at a bench. -/
def AtTurn [Script.Parser] (s : Settings) (mirror : Option Mirror) (words : Vocabulary)
    (paths : List Path) (b : Bench) (q : Path) (turn : Bench) : Prop :=
  ∃ before behind, paths = before ++ q :: behind ∧
    ∃ os, outcomes s mirror words before b = (.ok os, turn)

theorem AtTurn.next [Script.Parser] {next : Bench} {o : Outcome} {rest : List Path}
    (here : outcome s mirror words p b = (.ok o, next))
    (later : AtTurn s mirror words rest next q turn) :
    AtTurn s mirror words (p :: rest) b q turn := by
  obtain ⟨before, behind, rfl, os, rendered⟩ := later
  exact ⟨p :: before, behind, rfl, _, outcomes_cons here rendered⟩

/-- A row ends where a turn fails, or else goes on from where the turn ends. -/
theorem outcomes_cons_disk [Script.Parser] (s : Settings) (mirror : Option Mirror)
    (words : Vocabulary) (p : Path) (rest : List Path) (b : Bench) :
    (outcomes s mirror words (p :: rest) b).2.disk =
      match outcome s mirror words p b with
      | (.error _, next) => next.disk
      | (.ok _, next) => (outcomes s mirror words rest next).2.disk := by
  rw [outcomes]
  rcases first : outcome s mirror words p b with ⟨e | o, next⟩
  · rw [bind_of_error first]
  · rw [bind_of_ok first]
    dsimp only
    rcases more : outcomes s mirror words rest next with ⟨e | os, last⟩
    · rw [bind_of_error more]
    · rw [bind_of_ok more]
      rfl

/-- A file stays as it is while others are rendered. -/
theorem outcomes_same [Script.Parser]
    (calm : ∀ q turn, AtTurn s mirror words paths b q turn → ¬ WritesAt s mirror words q turn l) :
    SameAt b.disk (outcomes s mirror words paths b).2.disk l := by
  induction paths generalizing b with
  | nil => exact .refl _ l
  | cons p rest ih =>
    have here : SameAt b.disk (outcome s mirror words p b).2.disk l :=
      outcome_elsewhere (calm p b ⟨[], rest, rfl, [], rfl⟩)
    rw [outcomes_cons_disk]
    rcases first : outcome s mirror words p b with ⟨e | o, next⟩ <;> rw [first] at here
    · exact here
    · exact here.trans (ih fun q turn later => calm q turn (later.next first))

/-- So it is up to the turn of any of them. -/
theorem AtTurn.same [Script.Parser] (atTurn : AtTurn s mirror words paths b q turn)
    (calm : ∀ q turn, AtTurn s mirror words paths b q turn → ¬ WritesAt s mirror words q turn l) :
    SameAt b.disk turn.disk l := by
  obtain ⟨before, behind, rfl, os, rendered⟩ := atTurn
  have same : SameAt b.disk (outcomes s mirror words before b).2.disk l := by
    refine outcomes_same fun q' turn' earlier => calm q' turn' ?_
    obtain ⟨first, second, rfl, os', turned⟩ := earlier
    exact ⟨first, second ++ q :: behind, by simp, os', turned⟩
  rwa [rendered] at same

/-! ## Names -/

/-- A path leads to a file of another name, so that its own is the name of a link. -/
def Renamed (p : Path) (l : Location) : Prop := l.getLast? ≠ some (Path.baseName p)

/-- What is opened for writing has the name of a rendition. -/
theorem WritesAt.isRendition [Script.Parser] (writes : WritesAt s mirror words q b l) :
    Path.isRendition (Path.rendition q) = true := by
  obtain ⟨content, _, renders, _⟩ := writes
  refine Path.isRendition_rendition ?_
  cases renders with
  | document kind => simp [kind]
  | stylesheet kind => simp [kind]

/-- A source and a rendition are the same file only if one of them is reached by another name. -/
theorem renamed_of_writesAt [Script.Parser] {d : Disk} {tool : Path}
    (reads : ReadsAt d s.projectRoot tool p l)
    (writes : WritesAt s mirror words q b l) : Renamed p l ∨ Renamed (Path.rendition q) l := by
  refine Classical.byContradiction fun neither => ?_
  obtain ⟨source, target⟩ := not_or.1 neither
  simp only [Renamed, ne_eq, Decidable.not_not] at source target
  have sameName : Path.baseName p = Path.baseName (Path.rendition q) :=
    Option.some.inj (source.symm.trans target)
  have named := writes.isRendition
  rw [Path.isRendition, ← sameName] at named
  -- What has the name of a rendition is not read.
  obtain ⟨_, included⟩ := Project.refusal?_eq_none_iff.1 reads.1
  obtain ⟨_, _, listed⟩ := Project.isExcluded_eq_false_iff.1 included
  rw [Project.isSetAside, Path.isRendition, named, Bool.or_true] at listed
  cases listed

/-! ## A whole run -/

section Run

variable (s : Settings) (mirror : Option Mirror) (a : Assistant σ) (paths : List Path)
  (session : Session σ)

/-- A file has its turn in a run, under the vocabulary that was prepared. -/
def TurnOf [Script.Parser] [Lexicon.Bundle] (words : Vocabulary) (q : Path) (turn : Bench) : Prop :=
  ∃ prepared ready, prepare s a paths session = (.ok prepared, ready) ∧
    words = prepared.vocabulary ∧
    AtTurn s mirror words (order paths) (bench paths ready) q turn

/-- A run reads the file at a location as one of its sources: when it looks for missing words, or
    at the turn of the file. -/
def ReadInRun [Script.Parser] [Lexicon.Bundle] (p : Path) (l : Location) : Prop :=
  p ∈ paths ∧ isStylesheet p = false ∧ ReadsAt session.disk s.projectRoot [] p l ∨
    ∃ words turn, TurnOf s mirror a paths session words p turn ∧
      ReadsAt turn.disk s.projectRoot s.toolRoot p l

/-- A run opens the rendition of a file at a location. -/
def OpenedInRun [Script.Parser] [Lexicon.Bundle] (q : Path) (l : Location) : Prop :=
  ∃ words turn, TurnOf s mirror a paths session words q turn ∧ WritesAt s mirror words q turn l

end Run

/-- The hand-off file stood in the place of a link, which is gone, and with it gone the path of the
    store of fetched words names a location. -/
def Diverted [Script.Parser] [Lexicon.Bundle] (s : Settings) (a : Assistant σ) (paths : List Path)
    (session : Session σ) (l : Location) : Prop :=
  (∃ k target, session.disk.link? k = some target ∧
      (prepare s a paths session).2.disk.link? k = none) ∧
    ∃ file, s.lexiconFile = .str file ∧ Names (prepare s a paths session).2.disk file l

theorem diverted_of_names [Script.Parser] [Lexicon.Bundle] {a : Assistant σ} {session : Session σ}
    {file : Path} (path : s.lexiconFile = .str file) (before : ¬ Names session.disk file l)
    (names : Names (prepare s a paths session).2.disk file l) : Diverted s a paths session l := by
  refine ⟨Classical.byContradiction fun kept => before ?_, file, path, names⟩
  obtain ⟨cwd, links⟩ := prepare_links a session paths
  refine names.of_link? cwd.symm fun k => ?_
  rcases links k with same | gone
  · exact same.symm
  · cases was : session.disk.link? k with
    | none => exact gone.symm
    | some target => exact absurd ⟨k, target, was, gone⟩ kept

/-- No file changes in a run, but those that the paths of the hand-off file and of the store of
    fetched words name, and those that a rendition was opened at. -/
theorem run_same [Script.Parser] [Lexicon.Bundle] {a : Assistant σ} {session : Session σ}
    (handOff : ∀ h, s.handOffFile = .str h → ¬ Names session.disk h l)
    (lexicon : ∀ file, s.lexiconFile = .str file →
      ¬ Names (prepare s a paths session).2.disk file l)
    (closed : ∀ q, ¬ OpenedInRun s mirror a paths session q l) :
    SameAt session.disk (run s mirror a paths session).2.disk l ∧
      ∀ words q turn, TurnOf s mirror a paths session words q turn →
        SameAt session.disk turn.disk l := by
  have prepared := prepare_same a session handOff lexicon
  have calm : ∀ preparation ready, prepare s a paths session = (.ok preparation, ready) →
      ∀ q turn, AtTurn s mirror preparation.vocabulary (order paths) (bench paths ready) q turn →
        ¬ WritesAt s mirror preparation.vocabulary q turn l :=
    fun preparation ready done q turn atTurn writes =>
      closed q ⟨_, turn, ⟨preparation, ready, done, rfl, atTurn⟩, writes⟩
  constructor
  · rw [run_eq]
    rcases done : prepare s a paths session with ⟨e | preparation, ready⟩ <;> rw [done] at prepared
    · rw [bind_of_error done]
      exact prepared
    · rw [bind_of_ok done, afterwards_disk]
      exact prepared.trans (outcomes_same (calm preparation ready done))
  · rintro words q turn ⟨preparation, ready, done, rfl, atTurn⟩
    rw [done] at prepared
    exact prepared.trans (atTurn.same (calm preparation ready done))

/-- A source that a run has read is left as it was, unless a rendition was opened in its place, and
    then the path of the source or that of the rendition ends with the name of a link; or unless
    the hand-off file took the place of a link that the path of the fetched words went over. -/
theorem run_keeps_sources [Script.Parser] [Lexicon.Bundle] {a : Assistant σ} {session : Session σ}
    (source : ReadInRun s mirror a paths session p l)
    (handOff : ∀ h, s.handOffFile = .str h → ¬ Names session.disk h l)
    (lexicon : ∀ file, s.lexiconFile = .str file → ¬ Names session.disk file l) :
    (∃ bytes, session.disk.entry? l = some (.file bytes) ∧
        (run s mirror a paths session).2.disk.entry? l = some (.file bytes)) ∨
      (∃ q, OpenedInRun s mirror a paths session q l ∧
        (Renamed p l ∨ Renamed (Path.rendition q) l)) ∨
      Diverted s a paths session l := by
  by_cases opened : ∃ q, OpenedInRun s mirror a paths session q l
  · obtain ⟨q, words, turn, atTurn, writes⟩ := opened
    refine .inr (.inl ⟨q, ⟨words, turn, atTurn, writes⟩, ?_⟩)
    rcases source with ⟨_, _, reads⟩ | ⟨_, _, _, reads⟩ <;> exact renamed_of_writesAt reads writes
  · by_cases named : ∃ file, s.lexiconFile = .str file ∧
        Names (prepare s a paths session).2.disk file l
    · obtain ⟨file, path, names⟩ := named
      exact .inr (.inr (diverted_of_names path (lexicon file path) names))
    · obtain ⟨whole, turns⟩ := run_same handOff
        (fun file path names => named ⟨file, path, names⟩) fun q opens => opened ⟨q, opens⟩
      refine .inl ?_
      rcases source with ⟨_, _, _, bytes, there⟩ | ⟨words, turn, turnOf, _, bytes, there⟩
      · have was := Disk.entry_of_locate_file there
        exact ⟨bytes, was, (whole bytes).2 was⟩
      · have was := (turns words p turn turnOf bytes).1 (Disk.entry_of_locate_file there)
        exact ⟨bytes, was, (whole bytes).2 was⟩

/-! ## A rendition that is a link to its source -/

/-- A site where the rendition of a style sheet is a link to the sheet. -/
def aliasSite : Disk := ⟨"/site", [(["site"], .directory), (["site", "tool"], .directory),
  (["site", "home.css"], .file [0x61]), (["site", "home-ar.css"], .link "home.css")]⟩

/-- An assistant that is not ready. -/
def absent : Assistant Unit := ⟨false, fun _ _ => return ⟨.ok [], []⟩⟩

/-- Makes an empty sheet of all of them. -/
def blankMirror : Mirror := fun _ => .ok []

/-- The settings of the site. -/
def aliasSettings : Settings := Settings.default "/site/tool"

theorem root_aliasSettings : aliasSettings.projectRoot = "/site" := by cbv

theorem kind_aliasSite : FileKind.ofPath "/site/home.css" = .stylesheet := by decide

theorem readsAt_aliasSite :
    ReadsAt aliasSite "/site" "/site/tool" "/site/home.css" ["site", "home.css"] := by
  have included : Project.isExcluded aliasSite "/site" "/site/tool" Project.excludedNames
      "/site/home.css" = .ok false := by cbv
  have there : aliasSite.locate .target "/site/home.css" =
      .ok (.there ["site", "home.css"] (.file [0x61])) := by cbv
  exact ⟨Project.refusal?_eq_none_iff.2 ⟨by simp [kind_aliasSite], included⟩, _, there⟩

theorem read_aliasSite : Project.read aliasSite "/site" "/site/tool" "/site/home.css" =
    .ok "a" := by
  have text : aliasSite.readText "/site/home.css" = .ok "a" := by cbv
  rw [Project.read, readsAt_aliasSite.1, text]
  rfl

theorem opens_aliasSite : Project.Opens "/site" "/site/home-ar.css" aliasSite aliasSite
    ["site", "home.css"] := by
  have inside : Project.isWithin aliasSite "/site" "/site/home-ar.css" = .ok true := by cbv
  have lands : aliasSite.locate .creation "/site/home-ar.css" =
      .ok (.there ["site", "home.css"] (.file [0x61])) := by cbv
  exact Project.opens_of_isDirectory inside (by cbv) ⟨_, lands, trivial, rfl⟩

/-- Neither file of words has the name of the sheet. -/
theorem not_names_aliasSite {p : Path}
    (known : p = "/site/tool/missing_words.json" ∨ p = "/site/tool/cached_words.json") :
    ¬ Names aliasSite p ["site", "home.css"] := by
  have names : ∃ l, Names aliasSite p l ∧ l ≠ (["site", "home.css"] : Location) := by
    rcases known with rfl | rfl
    · have found : aliasSite.locate .creation "/site/tool/missing_words.json" =
          .ok (.free ["site", "tool", "missing_words.json"]) := by cbv
      exact ⟨_, Disk.Lands.names ⟨_, found, trivial, rfl⟩, by decide⟩
    · have found : aliasSite.locate .creation "/site/tool/cached_words.json" =
          .ok (.free ["site", "tool", "cached_words.json"]) := by cbv
      exact ⟨_, Disk.Lands.names ⟨_, found, trivial, rfl⟩, by decide⟩
  obtain ⟨l, names, other⟩ := names
  exact fun also => other (names.unique also)

theorem prepare_aliasSite [Script.Parser] [Lexicon.Bundle] : ∃ prepared log,
    prepare aliasSettings absent ["/site/home.css"] ⟨aliasSite, [], ()⟩ =
      (.ok prepared, ⟨aliasSite, log, ()⟩) := by
  have path : aliasSettings.lexiconFile = .str "/site/tool/cached_words.json" := rfl
  have passed : ∀ lexicon, Project.surveyFile aliasSite aliasSettings.projectRoot lexicon
      "/site/home.css" ⟨[], []⟩ = (.ok (), ⟨[], []⟩) := by
    intro lexicon
    unfold Project.surveyFile
    rw [kind_aliasSite]
  have surveyed : Project.survey aliasSite aliasSettings.projectRoot
      (Store.lexicon aliasSite "/site/tool/cached_words.json").1 ["/site/home.css"] ⟨[], []⟩ =
        (.ok (), ⟨[], []⟩) :=
    bind_of_ok (passed _)
  rw [prepare_eq path, surveyed]
  exact ⟨_, _, rfl⟩

section

open scoped Installed

/-- The rendition of the sheet is written over it. -/
theorem run_keeps_sources_alias :
    let session : Session Unit := ⟨aliasSite, [], ()⟩
    ReadInRun aliasSettings (some blankMirror) absent ["/site/home.css"] session "/site/home.css"
        ["site", "home.css"] ∧
      (∀ h, aliasSettings.handOffFile = .str h → ¬ Names aliasSite h ["site", "home.css"]) ∧
      (∀ file, aliasSettings.lexiconFile = .str file →
        ¬ Names aliasSite file ["site", "home.css"]) ∧
      aliasSite.entry? ["site", "home.css"] = some (.file [0x61]) ∧
      (run aliasSettings (some blankMirror) absent ["/site/home.css"] session).2.disk.entry?
        ["site", "home.css"] = some (.file []) ∧
      ((∃ q, OpenedInRun aliasSettings (some blankMirror) absent ["/site/home.css"] session q
          ["site", "home.css"] ∧ (Renamed "/site/home.css" ["site", "home.css"] ∨
            Renamed (Path.rendition q) ["site", "home.css"])) ∨
        Diverted aliasSettings absent ["/site/home.css"] session ["site", "home.css"]) := by
  intro session
  obtain ⟨prepared, log, prepares⟩ := prepare_aliasSite
  have ordered : order ["/site/home.css"] = [Text.ofString "/site/home.css"] := by cbv
  have source : ReadInRun aliasSettings (some blankMirror) absent ["/site/home.css"] session
      "/site/home.css" ["site", "home.css"] := by
    refine .inr ⟨_, bench ["/site/home.css"] ⟨aliasSite, log, ()⟩,
      ⟨prepared, _, prepares, rfl, ?_⟩, ?_⟩
    · exact ⟨[], [], ordered, [], rfl⟩
    · rw [root_aliasSettings]
      exact readsAt_aliasSite
  have handOff : ∀ h, aliasSettings.handOffFile = .str h →
      ¬ Names aliasSite h ["site", "home.css"] := by
    intro h given
    cases given
    exact not_names_aliasSite (.inl rfl)
  have lexicon : ∀ file, aliasSettings.lexiconFile = .str file →
      ¬ Names aliasSite file ["site", "home.css"] := by
    intro file given
    cases given
    exact not_names_aliasSite (.inr rfl)
  have was : aliasSite.entry? ["site", "home.css"] = some (.file [0x61]) := by decide
  have overwritten : (run aliasSettings (some blankMirror) absent ["/site/home.css"]
      session).2.disk.entry? ["site", "home.css"] = some (.file []) := by
    have output : Path.rendition "/site/home.css" = "/site/home-ar.css" := by decide
    have found : Project.read aliasSite aliasSettings.projectRoot aliasSettings.toolRoot
        "/site/home.css" = .ok "a" := by
      rw [root_aliasSettings]
      exact read_aliasSite
    have opens : Project.Opens aliasSettings.projectRoot (Path.rendition "/site/home.css")
        aliasSite aliasSite ["site", "home.css"] := by
      rw [root_aliasSettings, output]
      exact opens_aliasSite
    have drafted : ∀ run, draft (some blankMirror) prepared.vocabulary "/site/home.css" "a" run =
        (draftStylesheet (some blankMirror) "/site/home.css" "a", run) := by
      intro run
      simp only [draft, kind_aliasSite]
    have rendered := outcomes_singleton (outcome_of_opens
      (b := bench ["/site/home.css"] ⟨aliasSite, log, ()⟩) found (drafted _) rfl opens rfl)
    rw [run_eq, bind_of_ok prepares, afterwards_disk, ordered, rendered]
    exact Disk.entry?_put_self aliasSite (by decide) _
  refine ⟨source, handOff, lexicon, was, overwritten, ?_⟩
  rcases run_keeps_sources source handOff lexicon with ⟨bytes, before, after⟩ | written
  · rw [was] at before
    cases before
    rw [overwritten] at after
    cases after
  · exact written

end

end Arabize.Batch
