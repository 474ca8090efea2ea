import Arabize.Proofs.Batch.Gaps
import Arabize.Proofs.Lexicon.Named

/-! # What is handed over

A run asks its assistant once, or not at all.  That is not in its result, so an assistant is made
to note what it is asked and is otherwise the same (`Assistant.noting`): a step that is run with
it does what it does without, and notes its questions (`Notes`).

What is shown to the assistant is a disk with a hand-off file that names the missing words.
Whether or not it comes to that, the file is gone when asking has ended, unless the system refuses
to remove it (`prepare_handOff`).
-/

namespace Arabize

variable {σ α β : Type}

/-- An assistant that also notes what it is asked: the disk that it is shown, and the path of the
    hand-off file. -/
def Assistant.noting (a : Assistant σ) : Assistant (σ × List (Disk × Path)) where
  isReady := a.isReady
  ask d p := fun (peer, asked) =>
    ((a.ask d p peer).1, (a.ask d p peer).2, asked ++ [(d, p)])

/-- The service is reached with a key that is not blank. -/
theorem Client.isReady_assistant_iff (c : Client) (keys : List Text) :
    (c.assistant keys).isReady = true ↔ ∃ key ∈ keys, Text.strip key ≠ [] := by
  simp [Client.assistant, KeyRing.ofKeys]

namespace Batch

open Disk (Gone)
open Utf8 (Encodable)

/-! ## Questions that are noted -/

/-- A session with notes beside the state of the assistant. -/
def Session.noting (session : Session σ) (asked : List (Disk × Path)) :
    Session (σ × List (Disk × Path)) :=
  ⟨session.disk, session.log, session.peer, asked⟩

/-- From a session, a step does what another one does, and notes these questions. -/
def Notes (m : Step (σ × List (Disk × Path)) α) (n : Step σ α) (session : Session σ)
    (asked : List (Disk × Path)) : Prop :=
  ∀ before, m (session.noting before) =
    ((n session).1, (n session).2.noting (before ++ asked))

namespace Notes

variable {m : Step (σ × List (Disk × Path)) α} {n : Step σ α}
  {f : α → Step (σ × List (Disk × Path)) β} {g : α → Step σ β} {session : Session σ}
  {asked : List (Disk × Path)}

/-- A step that has no part in asking. -/
theorem quiet (same : ∀ notes, m (session.noting notes) =
    ((n session).1, (n session).2.noting notes)) : Notes m n session [] := fun before => by
  rw [same, List.append_nil]

/-- What is asked of a sequence is asked in its first step, if the others are quiet. -/
theorem bind (first : Notes m n session asked) (next : ∀ a t, Notes (f a) (g a) t []) :
    Notes (m >>= f) (n >>= g) session asked := by
  intro before
  have here := first before
  rcases ran : n session with ⟨e | a, t⟩ <;> rw [ran] at here
  · rw [bind_of_error here, bind_of_error ran]
  · rw [bind_of_ok here, bind_of_ok ran, next a t, List.append_nil]

end Notes

variable {s : Settings} {a : Assistant σ} {words : Missing.Words}

section Steps

variable (session : Session σ)

theorem pure_notes (x : α) : Notes (pure x) (pure x) session [] := .quiet fun _ => rfl

theorem throw_notes (e : Failure) :
    Notes (throw e : Step _ α) (throw e : Step _ α) session [] := .quiet fun _ => rfl

theorem report_notes (entries : Log) : Notes (report entries) (report entries) session [] :=
  .quiet fun _ => rfl

theorem pathOf_notes (value : Json) : Notes (pathOf value) (pathOf value) session [] :=
  .quiet fun _ => by cases value <;> rfl

theorem loadVocabulary_notes [Lexicon.Bundle] (file : Path) (fetched : Mapping Json) :
    Notes (loadVocabulary file fetched) (loadVocabulary file fetched) session [] :=
  .quiet fun _ => rfl

theorem clearHandOff_notes (p : Path) :
    Notes (clearHandOff p) (clearHandOff p) session [] := by
  refine .quiet fun notes => ?_
  simp only [clearHandOff, Session.noting]
  rcases Store.deleteHandOff p session.disk with ⟨e | _, disk⟩
  · dsimp only
    split <;> rfl
  · rfl

theorem keep_notes (file : Path) (translations : Mapping Json) :
    Notes (keep file translations) (keep file translations) session [] := by
  refine .quiet fun notes => ?_
  simp only [keep, Session.noting]
  rcases Store.append file translations ⟨session.disk, session.log⟩ with ⟨e | _, desk⟩
  · dsimp only
    split <;> rfl
  · rfl

end Steps

/-- What an assistant is asked by way of a hand-off file: nothing, if the file is not saved. -/
def questions (words : Missing.Words) (file : Json) (disk : Disk) : List (Disk × Path) :=
  match file with
  | .str p =>
    match Store.saveHandOff words p disk with
    | (.ok (), shown) => [(shown, p)]
    | (.error _, _) => []
  | _ => []

theorem fetchAt_notes (a : Assistant σ) (words : Missing.Words) (p : Path)
    (session : Session σ) :
    Notes (fetchAt a.noting words p) (fetchAt a words p) session
      (questions words (.str p) session.disk) := by
  unfold fetchAt
  refine Notes.bind (fun before => ?_) fun answer t => ?_
  · simp only [handOver, questions, Session.noting]
    rcases Store.saveHandOff words p session.disk with ⟨e | _, saved⟩
    · simp
    · rfl
  -- The assistant has had its turn by now, whatever it said.
  · cases answer with
    | error why =>
      exact (report_notes t _).bind fun _ u => (clearHandOff_notes u p).bind fun _ v =>
        pure_notes v _
    | ok translations => exact (clearHandOff_notes t p).bind fun _ u => pure_notes u _

theorem fetch_notes (a : Assistant σ) (words : Missing.Words) (file : Json)
    (session : Session σ) :
    Notes (fetch a.noting words file) (fetch a words file) session
      (questions words file session.disk) := by
  cases file with
  | str p => exact fetchAt_notes a words p session
  | _ => exact (report_notes session _).bind fun _ t => throw_notes t _

/-- What is done with what was fetched. -/
def conclude [Lexicon.Bundle] (s : Settings) (lexicon : Lexicon) (words : Missing.Words)
    (translations : Mapping Json) : Step σ Preparation := do
  if translations.isEmpty then
    inform "No AI translations received. Continuing with dictionary-only mode."
    return ⟨⟨lexicon, []⟩, words.length, 0⟩
  else
    let file ← pathOf s.lexiconFile
    keep file translations
    inform ("AI translated " ++ Text.ofNat translations.length
      ++ " word(s). Added to dictionary.")
    report (unanswered words translations)
    let completed ← loadVocabulary file translations
    return ⟨completed, words.length, translations.length⟩

theorem complete_eq [Lexicon.Bundle] (s : Settings) (a : Assistant σ) (lexicon : Lexicon)
    (words : Missing.Words) : complete s a lexicon words = (do
      inform ("Found " ++ Text.ofNat words.length
        ++ " missing word(s). Attempting AI translation...")
      let translations ← fetch a words s.handOffFile
      conclude s lexicon words translations) :=
  rfl

theorem conclude_notes [Lexicon.Bundle] (s : Settings) (lexicon : Lexicon) (words : Missing.Words)
    (translations : Mapping Json) (session : Session σ) :
    Notes (conclude s lexicon words translations) (conclude s lexicon words translations)
      session [] := by
  unfold conclude
  split
  · exact (report_notes session _).bind fun _ t => pure_notes t _
  · exact (pathOf_notes session _).bind fun file t => (keep_notes t file translations).bind
      fun _ u => (report_notes u _).bind fun _ v => (report_notes v _).bind
        fun _ w => (loadVocabulary_notes w file translations).bind fun _ x => pure_notes x _

/-! ## Asking in a run -/

variable {paths : List Path} {session : Session σ} {file p : Path}

/-- The words that a run finds missing, if it gets as far as that. -/
def lacking? [Script.Parser] [Lexicon.Bundle] (s : Settings) (disk : Disk) (paths : List Path) :
    Option Missing.Words :=
  match s.lexiconFile with
  | .str file =>
    match Project.survey disk s.projectRoot (Store.lexicon disk file).1 paths ⟨[], []⟩ with
    | (.ok (), seen) => some seen.words
    | (.error _, _) => none
  | _ => none

/-- The words that a run asks for: there are some, asking is enabled, and the assistant is ready. -/
def Enters [Script.Parser] [Lexicon.Bundle] (s : Settings) (a : Assistant σ) (disk : Disk)
    (paths : List Path) (words : Missing.Words) : Prop :=
  lacking? s disk paths = some words ∧ Asks s a words

theorem lacking?_eq_some [Script.Parser] [Lexicon.Bundle]
    (found : lacking? s session.disk paths = some words) :
    ∃ file seen, s.lexiconFile = .str file ∧ Project.survey session.disk s.projectRoot
      (Store.lexicon session.disk file).1 paths ⟨[], []⟩ = (.ok (), seen) ∧ seen.words = words := by
  unfold lacking? at found
  split at found
  next file path =>
    split at found
    next seen surveyed => exact ⟨file, seen, path, surveyed, Option.some.inj found⟩
    · cases found
  · cases found

/-- The words of a run are all different. -/
theorem nodup_of_lacking? [Script.Parser] [Lexicon.Bundle]
    (found : lacking? s session.disk paths = some words) : words.Nodup := by
  obtain ⟨_, _, _, surveyed, rfl⟩ := lacking?_eq_some found
  exact Project.survey_nodup surveyed .nil

/-- A session in which it was announced that the words of a survey are asked for. -/
def Session.announced [Lexicon.Bundle] (session : Session σ) (file : Path) (seen : Missing.Search) :
    Session σ :=
  { session with log := session.log ++ surveyLog session.disk file seen ++
    [⟨.info, "Found " ++ Text.ofNat seen.words.length
      ++ " missing word(s). Attempting AI translation..."⟩] }

/-- A run that asks fetches words, and goes on with what it got. -/
theorem prepare_of_asks [Script.Parser] [Lexicon.Bundle] (path : s.lexiconFile = .str file)
    {seen : Missing.Search}
    (surveyed : Project.survey session.disk s.projectRoot (Store.lexicon session.disk file).1 paths
      ⟨[], []⟩ = (.ok (), seen)) (asks : Asks s a seen.words) :
    prepare s a paths session =
      (fetch a seen.words s.handOffFile >>=
        conclude s (Store.lexicon session.disk file).1 seen.words)
        (session.announced file seen) := by
  rw [prepare_eq path, surveyed]
  dsimp only
  rw [supply, if_neg asks.1, if_pos asks.2, complete_eq, bind_of_ok (m := inform _) rfl]
  rfl

theorem supply_notes [Lexicon.Bundle] (idle : ¬ Asks s a words) (lexicon : Lexicon)
    (session : Session σ) :
    Notes (supply s a.noting lexicon words) (supply s a lexicon words) session [] := by
  unfold supply
  split
  · exact (report_notes session _).bind fun _ t => pure_notes t _
  next some =>
    have off : ¬ (s.asksService && a.isReady) = true := fun on => idle ⟨some, on⟩
    rw [if_neg off, if_neg (show ¬ (s.asksService && a.noting.isReady) = true from off)]
    exact (report_notes session _).bind fun _ t => pure_notes t _

/-- A run with notes asks for the words that are asked for, or it asks nothing. -/
theorem prepare_notes [Script.Parser] [Lexicon.Bundle] (s : Settings) (a : Assistant σ)
    (paths : List Path) (session : Session σ) :
    (∃ words, Enters s a session.disk paths words ∧
      Notes (prepare s a.noting paths) (prepare s a paths) session
        (questions words s.handOffFile session.disk)) ∨
    ((∀ words, ¬ Enters s a session.disk paths words) ∧
      Notes (prepare s a.noting paths) (prepare s a paths) session []) := by
  by_cases named : ∃ file, s.lexiconFile = .str file
  · obtain ⟨file, path⟩ := named
    rcases surveyed : Project.survey session.disk s.projectRoot
      (Store.lexicon session.disk file).1 paths ⟨[], []⟩ with ⟨e | _, seen⟩
    -- A survey that fails ends the run before anything is asked.
    · have lost : lacking? s session.disk paths = none := by simp only [lacking?, path, surveyed]
      refine .inr ⟨fun words enters => ?_, .quiet fun notes => ?_⟩
      · rw [Enters, lost] at enters
        cases enters.1
      · rw [prepare_eq path, prepare_eq path, surveyed]
        simp only [Session.noting, surveyed]
    · have found : lacking? s session.disk paths = some seen.words := by
        simp only [lacking?, path, surveyed]
      by_cases asks : Asks s a seen.words
      · refine .inl ⟨seen.words, ⟨found, asks⟩, fun before => ?_⟩
        -- The log has grown by now, but what is asked hangs on the disk alone.
        have also : Asks s a.noting seen.words := asks
        have told : prepare s a.noting paths (session.noting before) = _ :=
          prepare_of_asks path surveyed also
        rw [prepare_of_asks path surveyed asks, told]
        exact (fetch_notes a seen.words s.handOffFile (session.announced file seen)).bind
          (conclude_notes s _ seen.words) before
      · refine .inr ⟨fun words enters => asks ?_, fun before => ?_⟩
        · obtain ⟨same, asks⟩ := enters
          rw [found] at same
          cases same
          exact asks
        · rw [prepare_eq path, prepare_eq path, surveyed]
          simp only [Session.noting, surveyed]
          exact supply_notes asks _
            { session with log := session.log ++ surveyLog session.disk file seen } before
  -- Without a path of stored words there is not even a survey.
  · have unnamed : ∀ file, s.lexiconFile ≠ .str file := fun file path => named ⟨file, path⟩
    refine .inr ⟨fun words enters => ?_, .quiet fun notes => ?_⟩
    · obtain ⟨file, _, path, _⟩ := lacking?_eq_some enters.1
      exact unnamed file path
    · rw [prepare_of_unnamed unnamed, prepare_of_unnamed unnamed]

theorem mem_questions {file : Json} {disk shown : Disk} {h : Path} :
    (shown, h) ∈ questions words file disk ↔
      file = .str h ∧ Store.saveHandOff words h disk = (.ok (), shown) := by
  cases file with
  | str p =>
    simp only [questions]
    rcases saved : Store.saveHandOff words p disk with ⟨e | _, left⟩
    · refine iff_of_false (by simp) ?_
      rintro ⟨same, save⟩
      cases same
      rw [saved] at save
      cases save
    · rw [List.mem_singleton]
      constructor
      · intro same
        cases same
        exact ⟨rfl, saved⟩
      · rintro ⟨same, save⟩
        cases same
        rw [saved] at save
        cases save
        rfl
  | _ => simp [questions]

theorem length_questions (words : Missing.Words) (file : Json) (disk : Disk) :
    (questions words file disk).length ≤ 1 := by
  unfold questions
  repeat' split
  all_goals simp

theorem Enters.unique [Script.Parser] [Lexicon.Bundle] {disk : Disk} {others : Missing.Words}
    (enters : Enters s a disk paths words) (also : Enters s a disk paths others) : others = words :=
  Option.some.inj (also.1.symm.trans enters.1)

/-- When words were fetched there is nothing at the path of the hand-off file, unless the system
    refuses to remove what is there. -/
theorem fetch_gone (a : Assistant σ) (words : Missing.Words) (h : Path) (session : Session σ) :
    Gone (fetch a words (.str h) session).2.disk h ∨
      ∃ why, (Store.deleteHandOff h (Store.saveHandOff words h session.disk).2).1 =
        .error (.refused why h) := by
  rw [fetch, fetchAt_disk]
  exact Store.deleteHandOff_gone h _

/-- The hand-off file of a run.  The run with notes does what the run does, and has asked once or
    not at all: exactly if the run enters upon asking and the file of its words was saved.  The
    file that the assistant is shown gives just these words, in increasing order, and all of them
    can be encoded.  A run that enters upon asking fetches its words, and when that has ended, be
    it with an answer or without one, there is nothing at the path of the file, unless the system
    refuses to remove what is there.  The service is ready if some key for it is not blank. -/
theorem prepare_handOff [Script.Parser] [Lexicon.Bundle] (s : Settings) (a : Assistant σ)
    (paths : List Path) (session : Session σ) :
    (∃ asked : List (Disk × Path),
      prepare s a.noting paths (session.noting []) =
        ((prepare s a paths session).1, (prepare s a paths session).2.noting asked) ∧
      asked.length ≤ 1 ∧
      (∀ shown h, (shown, h) ∈ asked ↔ ∃ words, Enters s a session.disk paths words ∧
        s.handOffFile = .str h ∧ Store.saveHandOff words h session.disk = (.ok (), shown)) ∧
      ∀ words, Enters s a session.disk paths words → ∀ shown h, (shown, h) ∈ asked →
        (∀ w ∈ words, Encodable w) ∧ ∃ named, Store.loadHandOff shown h = .ok named ∧
          named.Pairwise (· < ·) ∧ ∀ w, w ∈ named ↔ w ∈ words) ∧
    (∀ words, Enters s a session.disk paths words → ∃ lexicon log,
      prepare s a paths session =
        (fetch a words s.handOffFile >>= conclude s lexicon words) { session with log } ∧
      ∀ h, s.handOffFile = .str h →
        Gone (fetch a words s.handOffFile { session with log }).2.disk h ∨
          ∃ why, (Store.deleteHandOff h (Store.saveHandOff words h session.disk).2).1 =
            .error (.refused why h)) ∧
    ∀ (c : Client) (keys : List Text),
      (c.assistant keys).isReady = true ↔ ∃ key ∈ keys, Text.strip key ≠ [] := by
  refine ⟨?_, fun words enters => ?_, Client.isReady_assistant_iff⟩
  -- What a run with notes has asked is the list of its questions; the rest is read off that.
  · rcases prepare_notes s a paths session with ⟨words, enters, notes⟩ | ⟨never, notes⟩
    · refine ⟨_, notes [], length_questions _ _ _, fun shown h => ?_, fun others also => ?_⟩
      · rw [List.nil_append, mem_questions]
        constructor
        · exact fun saved => ⟨words, enters, saved⟩
        · rintro ⟨others, also, saved⟩
          rwa [enters.unique also] at saved
      · rw [enters.unique also]
        intro shown h asked
        obtain ⟨loaded, encodable⟩ := Store.loadHandOff_of_saved (nodup_of_lacking? enters.1)
          (mem_questions.1 asked).2
        exact ⟨encodable, _, loaded, Text.pairwise_sort (nodup_of_lacking? enters.1),
          fun w => Text.mem_sort⟩
    · refine ⟨[], notes [], Nat.zero_le _, fun shown h => ?_, fun words enters => ?_⟩
      · refine iff_of_false List.not_mem_nil ?_
        rintro ⟨words, enters, _⟩
        exact never words enters
      · exact absurd enters (never words)
  · obtain ⟨file, seen, path, surveyed, rfl⟩ := lacking?_eq_some enters.1
    refine ⟨_, _, prepare_of_asks path surveyed enters.2, fun h handOff => ?_⟩
    rw [handOff]
    exact fetch_gone a seen.words h _

section

open scoped Installed

/-- A run whose assistant is out of reach has asked it, and leaves no hand-off file behind. -/
theorem prepare_handOff_offline : ∃ after : Session Unit,
    prepare (Settings.default "/site/tool") offline.noting ["/site/home.json"]
        ⟨kiwiSite, [], (), []⟩ =
      ((prepare (Settings.default "/site/tool") offline ["/site/home.json"]
        ⟨kiwiSite, [], ()⟩).1, after.noting [(askedSite, "/site/tool/missing_words.json")]) ∧
    Store.loadHandOff askedSite "/site/tool/missing_words.json" = .ok [Text.ofString "Kiwi"] ∧
    ∃ log, Gone (fetch offline ["Kiwi"] (.str "/site/tool/missing_words.json")
      ⟨kiwiSite, log, ()⟩).2.disk "/site/tool/missing_words.json" := by
  have handOff : (Settings.default "/site/tool").handOffFile =
      .str "/site/tool/missing_words.json" := rfl
  have enters : Enters (Settings.default "/site/tool") offline kiwiSite ["/site/home.json"]
      ["Kiwi"] := by
    refine ⟨?_, List.cons_ne_nil _ _, rfl⟩
    have path : (Settings.default "/site/tool").lexiconFile =
        .str "/site/tool/cached_words.json" := rfl
    simp only [lacking?, path, root_kiwiSite, survey_kiwiSite]
  obtain ⟨⟨asked, same, once, only, shows⟩, ends, _⟩ := prepare_handOff
    (Settings.default "/site/tool") offline ["/site/home.json"] ⟨kiwiSite, [], ()⟩
  have member : (askedSite, Text.ofString "/site/tool/missing_words.json") ∈ asked :=
    (only _ _).2 ⟨_, enters, handOff, saveHandOff_kiwiSite⟩
  obtain rfl : asked = [(askedSite, Text.ofString "/site/tool/missing_words.json")] := by
    match asked, once, member with
    | [_], _, member => rw [List.mem_singleton.1 member]
  obtain ⟨_, named, loaded, increasing, holds⟩ := shows _ enters _ _ member
  have kiwi : ∀ w ∈ named, w = Text.ofString "Kiwi" := fun w inside =>
    List.mem_singleton.1 ((holds w).1 inside)
  obtain ⟨_, log, _, gone⟩ := ends _ enters
  refine ⟨_, same, ?_, log, (gone _ handOff).resolve_right ?_⟩
  · rw [loaded]
    match named, increasing, holds, kiwi with
    | [], _, holds, _ => exact absurd ((holds _).2 (List.mem_singleton.2 rfl)) List.not_mem_nil
    | [w], _, _, kiwi => rw [kiwi w List.mem_cons_self]
    | v :: w :: _, increasing, _, kiwi =>
      have before := List.rel_of_pairwise_cons increasing List.mem_cons_self
      rw [kiwi v List.mem_cons_self, kiwi w (List.mem_cons_of_mem _ List.mem_cons_self)] at before
      exact absurd before (List.lt_irrefl _)
  · rw [saveHandOff_kiwiSite, deleteHandOff_askedSite]
    rintro ⟨_, refused⟩
    cases refused

end

end Batch

end Arabize
