import Arabize.Batch.Prepare
import Arabize.Proofs.Lexicon.Store
import Arabize.Proofs.Project.Survey

/-! # What keeps a vocabulary from being prepared

A vocabulary is prepared in three steps that can go wrong: the files are surveyed, the words
they miss are asked for by way of the hand-off file, and what came back is kept.  Whatever the
assistant says, asking fails only if the hand-off file is given by no path that could be
passed to the system, and keeping only if a word that came back has no encoding.
-/

namespace Arabize.Batch

open Disk (Balks Passable)

variable {σ : Type} {session : Session σ}

/-! ## The hand-off file -/

theorem clearHandOff_of_passable {p : Path} (passable : Passable p) (session : Session σ) :
    ∃ log, clearHandOff p session =
      (.ok (), { session with disk := (Store.deleteHandOff p session.disk).2, log }) := by
  have calm := mt (Store.deleteHandOff_balks_iff p session.disk).1 (not_not_intro passable)
  unfold clearHandOff
  rcases deleted : Store.deleteHandOff p session.disk with ⟨e | _, disk⟩
  · have refusal : e.isRefusal = true := by
      cases same : e.isRefusal with
      | true => rfl
      | false => exact absurd ⟨e, by rw [deleted], same⟩ calm
    dsimp only
    rw [if_pos refusal]
    exact ⟨_, rfl⟩
  · exact ⟨session.log, rfl⟩

theorem clearHandOff_of_not_passable {p : Path} (stuck : ¬ Passable p) (session : Session σ) :
    ¬ Returns (clearHandOff p) session := by
  obtain ⟨e, failed, unexpected⟩ := (Store.deleteHandOff_balks_iff p session.disk).2 stuck
  unfold clearHandOff
  rcases deleted : Store.deleteHandOff p session.disk with ⟨f | _, disk⟩
  · rw [deleted] at failed
    cases failed
    refine not_returns_of_error (e := .access e) (t := { session with disk }) ?_
    simp [deleted, unexpected]
  · rw [deleted] at failed
    cases failed

/-- What an assistant translates that is asked by way of a hand-off file, and the disk that
    is left once the file is removed. -/
def Fetches (a : Assistant σ) (words : Missing.Words) (p : Path) (disk : Disk) (peer : σ)
    (translations : Mapping Json) (left : Disk) : Prop :=
  ∃ saved, Store.saveHandOff words p disk = (.ok (), saved) ∧
    (a.ask saved p peer).1.words = .ok translations ∧ left = (Store.deleteHandOff p saved).2

variable {a : Assistant σ} {words : Missing.Words} {p : Path}

theorem fetches_iff {translations : Mapping Json} {left : Disk} :
    Fetches a words p session.disk session.peer translations left ↔
      ∃ asked, handOver a words p session = (.ok translations, asked) ∧
        left = (Store.deleteHandOff p asked.disk).2 := by
  unfold Fetches handOver
  rcases Store.saveHandOff words p session.disk with ⟨e | _, saved⟩
  · constructor
    · rintro ⟨_, same, _⟩
      cases same
    · rintro ⟨_, same, _⟩
      cases same
  · dsimp only
    rcases asked : a.ask saved p session.peer with ⟨⟨answer, log⟩, peer⟩
    constructor
    · rintro ⟨_, same, given, rfl⟩
      cases same
      rw [asked] at given
      cases given
      exact ⟨⟨saved, session.log ++ log, peer⟩, rfl, rfl⟩
    · rintro ⟨_, same, rfl⟩
      cases same
      exact ⟨saved, rfl, by rw [asked], rfl⟩

/-- What comes back, if the hand-off file can be removed: all that was fetched, or nothing. -/
theorem fetchAt_of_passable (a : Assistant σ) (words : Missing.Words) (passable : Passable p)
    (session : Session σ) :
    ∃ translations after, fetchAt a words p session = (.ok translations, after) ∧
      ∀ fetched left, fetched ≠ [] →
        (Fetches a words p session.disk session.peer fetched left ↔
          translations = fetched ∧ after.disk = left) := by
  unfold fetchAt
  simp only [fetches_iff]
  rcases answered : handOver a words p session with ⟨why | translations, asked⟩
  -- The hand-off or the assistant failed: that is reported, and the file is removed.
  · obtain ⟨log, cleared⟩ := clearHandOff_of_passable passable
      { asked with log := asked.log ++ [askingFailed why] }
    refine ⟨[], { asked with disk := (Store.deleteHandOff p asked.disk).2, log }, ?_, ?_⟩
    · rw [bind_of_ok (a := .error why) (t := asked) (by simp only [answered])]
      exact (bind_of_ok rfl).trans (bind_of_ok cleared)
    · intro fetched left given
      refine iff_of_false ?_ fun both => given both.1.symm
      rintro ⟨_, same, _⟩
      cases same
  · obtain ⟨log, cleared⟩ := clearHandOff_of_passable passable asked
    refine ⟨translations, { asked with disk := (Store.deleteHandOff p asked.disk).2, log }, ?_, ?_⟩
    · rw [bind_of_ok (a := .ok translations) (t := asked) (by simp only [answered])]
      exact bind_of_ok cleared
    · intro fetched left _
      constructor
      · rintro ⟨_, same, rfl⟩
        cases same
        exact ⟨rfl, rfl⟩
      · rintro ⟨rfl, rfl⟩
        exact ⟨asked, rfl, rfl⟩

theorem fetchAt_of_not_passable (stuck : ¬ Passable p) (session : Session σ) :
    ¬ Returns (fetchAt a words p) session := by
  unfold fetchAt
  rcases answered : handOver a words p session with ⟨why | translations, asked⟩
  · rw [returns_bind_of_ok (a := .error why) (t := asked) (by simp only [answered])]
    dsimp only
    rw [returns_bind_of_ok (m := report [askingFailed why]) rfl, returns_bind]
    rintro ⟨_, _, cleared, _⟩
    exact clearHandOff_of_not_passable stuck _ ⟨_, _, cleared⟩
  · rw [returns_bind_of_ok (a := .ok translations) (t := asked) (by simp only [answered])]
    dsimp only
    rw [returns_bind]
    rintro ⟨_, _, cleared, _⟩
    exact clearHandOff_of_not_passable stuck _ ⟨_, _, cleared⟩

/-! ## Keeping what came back -/

/-- The words of a file, overridden by words that came back. -/
def merged (disk : Disk) (file : Path) (translations : Mapping Json) : Mapping Json :=
  (Json.textValues (Store.load disk file).1).update translations

/-- Words that cannot be written to a file that is opened have no encoding. -/
theorem merged_balks_iff {file : Path} (passable : Passable file) {translations : Mapping Json}
    (texts : Json.Textual translations) (disk : Disk) :
    Balks (Store.write file (merged disk file translations)) disk ↔
      Store.Opens file disk ∧ ∃ kv ∈ merged disk file translations, Json.Unencodable kv :=
  Store.write_balks_iff passable ((Json.textual_textValues _).update texts)

/-- Words that came back are kept, or the system refuses to, unless they cannot be written. -/
theorem keep_returns_iff (file : Path) (translations : Mapping Json) (session : Session σ) :
    Returns (keep file translations) session ↔
      ¬ Balks (Store.write file (merged session.disk file translations)) session.disk := by
  unfold Balks merged keep Store.append
  dsimp only
  rcases written : Store.write file ((Json.textValues (Store.load session.disk file).1).update
    translations) session.disk with ⟨e | _, disk⟩
  · cases refusal : e.isRefusal with
    | true =>
      exact iff_of_true ⟨(), _, by simp only [written, refusal, if_true]; rfl⟩ (by simp [refusal])
    | false =>
      refine iff_of_false (not_returns_of_error (e := .access e) (t := ?_) ?_) (by simp [refusal])
      · exact { session with disk, log := session.log ++ (Store.load session.disk file).2 }
      · simp [written, refusal]
  · exact iff_of_true ⟨(), _, by simp only [written]; rfl⟩ (by simp)

/-! ## Completing a lexicon -/

/-- What keeps words from being asked for and kept. -/
inductive Obstructs (s : Settings) (a : Assistant σ) (file : Path) (words : Missing.Words)
    (disk : Disk) (peer : σ) : Prop
  /-- The hand-off file has no path that can be passed to the system. -/
  | handOff : (∀ p, s.handOffFile = .str p → ¬ Passable p) → Obstructs s a file words disk peer
  /-- What came back cannot be written, and not because the system refuses. -/
  | keep {p : Path} {translations : Mapping Json} {left : Disk} :
      s.handOffFile = .str p → Fetches a words p disk peer translations left →
      translations ≠ [] → Balks (Store.write file (merged left file translations)) left →
      Obstructs s a file words disk peer

theorem complete_returns_iff [Lexicon.Bundle] {s : Settings} {file : Path}
    (path : s.lexiconFile = .str file) (lexicon : Lexicon) (session : Session σ) :
    Returns (complete s a lexicon words) session ↔
      ¬ Obstructs s a file words session.disk session.peer := by
  unfold complete
  rw [returns_bind_of_ok (m := inform _) rfl]
  by_cases given : ∃ p, s.handOffFile = .str p ∧ Passable p
  · obtain ⟨p, handOff, passable⟩ := given
    obtain ⟨translations, after, fetched, only⟩ := fetchAt_of_passable a words passable
      { session with log := session.log ++ _ }
    rw [handOff, fetch, returns_bind_of_ok fetched]
    by_cases empty : translations = []
    -- What is empty is not kept, so nothing can go wrong with it.
    · subst empty
      refine iff_of_true ⟨_, _, rfl⟩ ?_
      rintro (stuck | ⟨same, fetches, brought, balks⟩)
      · exact stuck p handOff passable
      · rw [handOff] at same
        cases same
        exact brought ((only _ _ brought).1 fetches).1.symm
    · have full : translations.isEmpty = false := by simpa using empty
      have found : pathOf s.lexiconFile after = (.ok file, after) := by rw [path]; rfl
      have kept := keep_returns_iff file translations after
      simp only [full, Bool.false_eq_true, if_false]
      rw [returns_bind_of_ok found, returns_bind]
      constructor
      · rintro ⟨_, next, done, _⟩ (stuck | ⟨same, fetches, brought, balks⟩)
        · exact stuck p handOff passable
        · rw [handOff] at same
          cases same
          obtain ⟨rfl, rfl⟩ := (only _ _ brought).1 fetches
          exact kept.1 ⟨_, _, done⟩ balks
      · intro free
        obtain ⟨_, next, done⟩ := kept.2 fun balks =>
          free (.keep handOff ((only _ _ empty).2 ⟨rfl, rfl⟩) empty balks)
        exact ⟨_, next, done, _, _, rfl⟩
  · refine iff_of_false ?_ fun free =>
      free (.handOff fun p same passable => given ⟨p, same, passable⟩)
    rw [returns_bind]
    rintro ⟨_, _, fetched, _⟩
    cases handOff : s.handOffFile <;> rw [handOff] at fetched
    case str p =>
      exact fetchAt_of_not_passable (fun passable => given ⟨p, handOff, passable⟩) _
        ⟨_, _, fetched⟩
    all_goals cases fetched

/-! ## Preparing a vocabulary -/

/-- The words that the files at some paths miss. -/
def missing [Script.Parser] [Lexicon.Bundle] (s : Settings) (disk : Disk) (file : Path)
    (paths : List Path) : Missing.Words :=
  (Project.survey disk s.projectRoot (Store.lexicon disk file).1 paths ⟨[], []⟩).2.words

/-- Whether missing words are asked for. -/
def Asks (s : Settings) (a : Assistant σ) (words : Missing.Words) : Prop :=
  words ≠ [] ∧ (s.asksService && a.isReady) = true

/-- What keeps the vocabulary of some files from being prepared. -/
inductive Hinders [Script.Parser] [Lexicon.Bundle] (s : Settings) (a : Assistant σ)
    (paths : List Path) (session : Session σ) : Prop
  /-- The file of words has no path. -/
  | lexiconFile : (∀ file, s.lexiconFile ≠ .str file) → Hinders s a paths session
  /-- A file ends the survey. -/
  | survey {p : Path} : p ∈ paths → Project.Blocks session.disk s.projectRoot p →
      Hinders s a paths session
  /-- Words are to be asked for, which cannot be done, or cannot be kept. -/
  | asking {file : Path} : s.lexiconFile = .str file →
      Asks s a (missing s session.disk file paths) →
      Obstructs s a file (missing s session.disk file paths) session.disk session.peer →
      Hinders s a paths session

theorem hinders_iff [Script.Parser] [Lexicon.Bundle] {s : Settings} {paths : List Path}
    {file : Path} (path : s.lexiconFile = .str file)
    (passes : ∀ p ∈ paths, ¬ Project.Blocks session.disk s.projectRoot p) :
    Hinders s a paths session ↔ Asks s a (missing s session.disk file paths) ∧
      Obstructs s a file (missing s session.disk file paths) session.disk session.peer := by
  constructor
  · rintro (unnamed | ⟨member, blocks⟩ | ⟨same, asks, obstructs⟩)
    · exact absurd path (unnamed file)
    · exact absurd blocks (passes _ member)
    · rw [path] at same
      cases same
      exact ⟨asks, obstructs⟩
  · rintro ⟨asks, obstructs⟩
    exact .asking path asks obstructs

/-- A vocabulary is prepared unless one of these hinders it. -/
theorem prepare_returns_iff [Script.Parser] [Lexicon.Bundle] (aligned : Script.Parser.IsAligned)
    (s : Settings) (a : Assistant σ) (paths : List Path) (session : Session σ) :
    Returns (prepare s a paths) session ↔ ¬ Hinders s a paths session := by
  unfold prepare
  by_cases named : ∃ file, s.lexiconFile = .str file
  · obtain ⟨file, path⟩ := named
    have found : pathOf s.lexiconFile session = (.ok file, session) := by rw [path]; rfl
    have loaded : loadLexicon file session = (.ok (Store.lexicon session.disk file).1,
        { session with log := session.log ++ (Store.lexicon session.disk file).2 }) := rfl
    rw [returns_bind_of_ok found, returns_bind_of_ok loaded,
      returns_bind_of_ok (m := inform _) rfl]
    have surveyed := (Project.survey_returns_iff session.disk s.projectRoot
      (Store.lexicon session.disk file).1 paths ⟨[], []⟩).trans
        (forall₂_congr fun p _ => Project.searchable_iff aligned)
    by_cases passes : ∀ p ∈ paths, ¬ Project.Blocks session.disk s.projectRoot p
    · obtain ⟨_, seen, done⟩ := surveyed.2 passes
      have words : missing s session.disk file paths = seen.words := by rw [missing, done]
      -- What is reported meanwhile has no part in the survey.
      have collected : ∀ log, collectMissing s.projectRoot (Store.lexicon session.disk file).1 paths
          { session with log } = (.ok seen.words, { session with log := log ++ seen.log }) := by
        intro log
        simp only [collectMissing, done]
      rw [returns_bind_of_ok (collected _), hinders_iff path passes, words]
      by_cases known : seen.words = []
      · rw [if_pos known]
        exact iff_of_true ⟨_, _, rfl⟩ fun both => both.1.1 known
      · rw [if_neg known]
        by_cases asks : (s.asksService && a.isReady) = true
        · rw [if_pos asks, complete_returns_iff path, and_iff_right ⟨known, asks⟩]
        · rw [if_neg asks]
          exact iff_of_true ⟨_, _, rfl⟩ fun both => asks both.1.2
    · refine iff_of_false ?_ fun free => passes fun p member blocks => free (.survey member blocks)
      rw [returns_bind]
      rintro ⟨_, _, collected, _⟩
      refine mt surveyed.1 passes ?_
      rcases done : Project.survey session.disk s.projectRoot (Store.lexicon session.disk file).1
        paths ⟨[], []⟩ with ⟨e | _, seen⟩
      · simp only [collectMissing, done] at collected
        cases collected
      · exact ⟨_, _, done⟩
  · refine iff_of_false ?_ fun free => free (.lexiconFile fun file path => named ⟨file, path⟩)
    rw [returns_bind]
    rintro ⟨file, _, found, _⟩
    cases path : s.lexiconFile <;> rw [path] at found
    case str p => exact named ⟨p, path⟩
    all_goals cases found

/-! ## Vocabularies without strays -/

/-- An assistant whose translations are texts. -/
def Plain (a : Assistant σ) : Prop :=
  ∀ disk p peer translations, (a.ask disk p peer).1.words = .ok translations →
    Json.Textual translations

/-- The service is one: what is no text it does not pass on. -/
theorem plain_assistant (c : Client) (keys : List Text) : Plain (c.assistant keys) := by
  intro disk p wire translations given
  have answered : ((c.assistant keys).ask disk p wire).1.words =
      ((c.translateHandOff disk p ⟨KeyRing.ofKeys keys, wire, []⟩).1.mapError
        ServiceError.message).map Json.textValues := rfl
  rw [answered] at given
  cases said : (c.translateHandOff disk p ⟨KeyRing.ofKeys keys, wire, []⟩).1 with
  | error e =>
    rw [said] at given
    cases given
  | ok answer =>
    rw [said] at given
    cases given
    exact Json.textual_textValues answer

theorem fetch_textual (plain : Plain a) {file : Json} {translations : Mapping Json}
    {after : Session σ} (fetched : fetch a words file session = (.ok translations, after)) :
    Json.Textual translations := by
  cases file
  case str p =>
    obtain ⟨answer, asked, answered, rest⟩ := bind_eq_ok.1 fetched
    cases answer with
    | error why =>
      obtain ⟨_, _, _, rest⟩ := bind_eq_ok.1 rest
      obtain ⟨_, _, _, rest⟩ := bind_eq_ok.1 rest
      cases rest
      exact fun kv member => nomatch member
    | ok given =>
      obtain ⟨_, _, _, rest⟩ := bind_eq_ok.1 rest
      cases rest
      rcases known : handOver a words p session with ⟨said, next⟩
      simp only [known] at answered
      cases answered
      obtain ⟨saved, _, words, _⟩ := fetches_iff.2 ⟨asked, known, rfl⟩
      exact plain _ _ _ _ words
  all_goals cases fetched

/-- A lexicon is completed with what came back, or left as it is if nothing did. -/
theorem complete_eq_ok [Lexicon.Bundle] {s : Settings} {lexicon : Lexicon} {prepared : Preparation}
    {after : Session σ} (run : complete s a lexicon words session = (.ok prepared, after)) :
    ∃ log translations fetched,
      fetch a words s.handOffFile { session with log } = (.ok translations, fetched) ∧
        (translations = [] ∧ prepared.vocabulary = ⟨lexicon, []⟩ ∨
          ∃ file kept, s.lexiconFile = .str file ∧
            keep file translations fetched = (.ok (), kept) ∧
            prepared.vocabulary = (Store.vocabulary kept.disk file translations).1) := by
  obtain ⟨_, told, informed, asks⟩ := bind_eq_ok.1 run
  cases informed
  obtain ⟨translations, fetched, fetches, run⟩ := bind_eq_ok.1 asks
  refine ⟨_, translations, fetched, fetches, ?_⟩
  split at run
  next empty =>
    obtain ⟨_, _, _, run⟩ := bind_eq_ok.1 run
    cases run
    exact .inl ⟨List.isEmpty_iff.1 empty, rfl⟩
  · obtain ⟨file, same, found, run⟩ := bind_eq_ok.1 run
    obtain ⟨_, kept, keeps, run⟩ := bind_eq_ok.1 run
    obtain ⟨_, _, informed, run⟩ := bind_eq_ok.1 run
    obtain ⟨_, _, reported, run⟩ := bind_eq_ok.1 run
    obtain ⟨vocabulary, _, loaded, run⟩ := bind_eq_ok.1 run
    cases informed
    cases reported
    cases loaded
    cases run
    cases path : s.lexiconFile <;> rw [path] at found <;> cases found
    exact .inr ⟨_, kept, rfl, keeps, rfl⟩

theorem complete_plain [Lexicon.Bundle] (plain : Plain a) {s : Settings} {lexicon : Lexicon}
    {prepared : Preparation} {after : Session σ}
    (run : complete s a lexicon words session = (.ok prepared, after)) :
    prepared.vocabulary.strays = [] := by
  obtain ⟨_, translations, _, fetches, ⟨_, same⟩ | ⟨_, _, _, _, same⟩⟩ := complete_eq_ok run <;>
    rw [same]
  exact Vocabulary.straysIn_textual (fetch_textual plain fetches)

/-- A vocabulary for which only texts were given holds no strays. -/
theorem prepare_plain [Script.Parser] [Lexicon.Bundle] (plain : Plain a) {s : Settings}
    {paths : List Path} {prepared : Preparation} {after : Session σ}
    (run : prepare s a paths session = (.ok prepared, after)) :
    prepared.vocabulary.strays = [] := by
  obtain ⟨file, _, _, run⟩ := bind_eq_ok.1 run
  obtain ⟨lexicon, _, _, run⟩ := bind_eq_ok.1 run
  obtain ⟨_, _, _, run⟩ := bind_eq_ok.1 run
  obtain ⟨words, _, _, run⟩ := bind_eq_ok.1 run
  split at run
  · obtain ⟨_, _, _, run⟩ := bind_eq_ok.1 run
    cases run
    rfl
  · split at run
    · exact complete_plain plain run
    · obtain ⟨_, _, _, run⟩ := bind_eq_ok.1 run
      cases run
      rfl

end Arabize.Batch
