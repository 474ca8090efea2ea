import Arabize.Proofs.Batch.Silence
import Arabize.Proofs.Batch.Turns
import Arabize.Proofs.Lexicon.Stored

/-! # Replaying a run without its assistant

The words that an assistant gives are stored before anything is rendered, and a later run
starts from what is stored.  So a run over the same paths that does not ask comes to the same
outcomes, and leaves the disk as it found it: it writes every rendition anew, byte for byte.
-/

namespace Arabize.Batch

open Disk (Alike Lands)

variable {σ : Type} {s : Settings} {mirror : Option Mirror} {a : Assistant σ} {paths : List Path}
  {session : Session σ} {h file p : Path} {translations : Mapping Json} {left kept : Disk}

/-- What an assistant has done for a run: it was asked by way of a hand-off file, and the
    words that came back were stored. -/
structure Assists [Script.Parser] [Lexicon.Bundle] (s : Settings) (a : Assistant σ)
    (paths : List Path) (session : Session σ) (h file : Path) (translations : Mapping Json)
    (left kept : Disk) : Prop where
  handOff : s.handOffFile = .str h
  path : s.lexiconFile = .str file
  asks : Asks s a (missing s session.disk file paths)
  fetches : Fetches a (missing s session.disk file paths) h session.disk session.peer translations
    left
  given : translations ≠ []
  textual : Json.Textual translations
  nodup : (Mapping.keys translations).Nodup
  stored : Store.write file (merged left file translations) left = (.ok (), kept)

/-- The location where a hand-off file is written, once its directories are made. -/
def HandedOverAt (d : Disk) (h : Path) (l : Location) : Prop :=
  ∃ made, Disk.makeDirectories (Store.directoryOf h) d = (.ok (), made) ∧ Lands made h l

/-- A source that is the same on a disk as it was on an earlier one: a file that its path leads
    to was there before, with the same bytes, and what the project can read of it could be
    read before. -/
structure Unchanged (root : Path) (d c : Disk) (p : Path) : Prop where
  file : ∀ l bytes, LeadsTo c p l bytes → LeadsTo d p l bytes
  text : ∀ content, Project.read c root [] p = .ok content →
    Project.read d root [] p = .ok content

/-- What is unchanged ends no survey that it did not end. -/
theorem Unchanged.searchable [Script.Parser] {root p : Path} {d c : Disk}
    (unchanged : Unchanged root d c p) (searchable : Project.Searchable d root p) :
    Project.Searchable c root p :=
  fun format content kind found => searchable format content kind (unchanged.text content found)

/-- A source whose file is kept, as are all links and directories, is unchanged. -/
theorem Unchanged.of_keeps {root p : Path} {d c : Disk} {l : Location} {bytes : Bytes}
    (kept : Disk.Keeps d c) (links : ∀ k, c.link? k = d.link? k) (leads : LeadsTo d p l bytes)
    (now : c.entry? l = some (.file bytes)) : Unchanged root d c p := by
  have there := Disk.locate_file_of_keeps kept leads now
  refine ⟨fun k more given => ?_, fun content found => ?_⟩
  · rw [LeadsTo, there] at given
    cases given
    exact leads
  · rw [← Project.read_links kept.cwd links leads there]
    exact found

/-- The hand-off file was not a source, and the file of words is neither the source nor its
    rendition, links followed. -/
structure Apart (d c : Disk) (h file p : Path) : Prop where
  handOff : ∀ l bytes, LeadsTo c p l bytes → ¬ HandedOverAt d h l
  source : ∀ l bytes, LeadsTo c p l bytes → ¬ Lands c file l
  rendition : ∀ l, Lands c file l → ¬ Lands c (Path.rendition p) l

theorem HandedOverAt.unique {d : Disk} {l k : Location} (handed : HandedOverAt d h l)
    (also : HandedOverAt d h k) : l = k := by
  obtain ⟨made, makes, lands⟩ := handed
  obtain ⟨other, again, elsewhere⟩ := also
  rw [makes] at again
  cases again
  exact lands.unique elsewhere

/-- Four files at different locations are apart. -/
theorem Apart.of_ne {d c : Disk} {p : Path} {i j k m : Location} {bytes : Bytes}
    (handed : HandedOverAt d h i) (words : Lands c file j) (leads : LeadsTo c p k bytes)
    (target : Lands c (Path.rendition p) m) (ofHandOff : k ≠ i) (ofWords : k ≠ j)
    (ofRendition : j ≠ m) : Apart d c h file p := by
  have only : ∀ l more, LeadsTo c p l more → l = k := by
    intro l more given
    rw [LeadsTo, leads] at given
    cases given
    rfl
  refine ⟨fun l more given also => ?_, fun l more given lands => ?_, fun l lands rendition => ?_⟩
  · exact ofHandOff ((only l more given).symm.trans (also.unique handed))
  · exact ofWords ((only l more given).symm.trans (lands.unique words))
  · exact ofRendition ((words.unique lands).trans (rendition.unique target))

namespace Assists

variable [Script.Parser] [Lexicon.Bundle]
  (assists : Assists s a paths session h file translations left kept)

include assists

/-! ## What was stored -/

theorem merged_eq : merged left file translations =
    Json.textValues ((Store.load left file).1.update (Json.textFields translations)) := by
  rw [merged, Json.textValues_update, ← Json.textual_iff.1 assists.textual]

/-- The file of words is where it was written, on every later disk that still has it. -/
theorem load {c : Disk} (alike : Alike kept c)
    (same : ∀ l, Lands c file l → c.entry? l = kept.entry? l) :
    Store.load c file =
      ((Store.load left file).1.update (Json.textFields translations), []) := by
  have written := assists.stored
  rw [assists.merged_eq] at written
  exact Store.load_of_written (Mapping.nodup_keys_update (Store.nodup_keys_load left file) _)
    written alike same

/-- The vocabulary of the run is the lexicon that a later run starts from. -/
theorem vocabulary {c : Disk} (alike : Alike kept c)
    (same : ∀ l, Lands c file l → c.entry? l = kept.entry? l) :
    (Store.vocabulary kept file translations).1 = ⟨(Store.lexicon c file).1, []⟩ := by
  have here := assists.load (.refl kept) fun _ _ => rfl
  have there := assists.load alike same
  rw [Store.vocabulary_of_stored assists.textual assists.nodup
    (Store.nodup_keys_load left file) (by rw [here])]
  simp only [Store.lexicon, here, there]

/-- A file that is neither that of the hand-off nor that of the words is as it was. -/
theorem entry_kept {l : Location} {bytes : Bytes} (was : session.disk.entry? l = some (.file bytes))
    (notHandOff : ¬ HandedOverAt session.disk h l) (notStore : ¬ Lands kept file l) :
    kept.entry? l = some (.file bytes) := by
  obtain ⟨saved, save, -, removed⟩ := assists.fetches
  obtain ⟨made, k, directories, lands, -, rfl⟩ := Store.write_eq_ok save
  have other : l ≠ k := by
    rintro rfl
    exact notHandOff ⟨made, directories, lands⟩
  have afterwards : left.entry? l = some (.file bytes) := by
    rw [removed]
    exact Store.entry_of_deleteHandOff lands other
      ((Store.adds_of_directories directories).entry_of_some was)
  obtain ⟨opened, i, directories, lands, -, rfl⟩ := Store.write_eq_ok assists.stored
  rw [Disk.entry?_put_of_ne opened, (Store.adds_of_directories directories).entry_of_some afterwards]
  rintro rfl
  exact notStore ((Alike.put opened lands.writable _).lands_iff.2 lands)

/-! ## The run that has asked -/

/-- What comes back is stored, and completes the vocabulary. -/
theorem complete (lexicon : Lexicon) (log : Log) :
    ∃ prepared ready, Batch.complete s a lexicon (missing s session.disk file paths)
        { session with log } = (.ok prepared, ready) ∧
      prepared.vocabulary = (Store.vocabulary kept file translations).1 ∧ ready.disk = kept := by
  have passable : Disk.Passable h := by
    obtain ⟨saved, save, -, -⟩ := assists.fetches
    obtain ⟨_, _, _, lands, -, -⟩ := Store.write_eq_ok save
    exact lands.passable
  unfold Batch.complete
  rw [bind_of_ok (m := inform _) rfl, assists.handOff, fetch]
  generalize log ++ [_] = told
  obtain ⟨words, asked, fetched, only⟩ := fetchAt_of_passable a
    (missing s session.disk file paths) passable { session with log := told }
  obtain ⟨rfl, disk⟩ := (only translations left assists.given).1 assists.fetches
  have full : words.isEmpty = false := by simpa using assists.given
  rw [bind_of_ok fetched]
  simp only [full, Bool.false_eq_true, if_false, assists.path]
  have stored := assists.stored
  rw [← disk] at stored
  have keeps : keep file words asked = (.ok (), { asked with
      disk := kept, log := asked.log ++ (Store.load asked.disk file).2
        ++ [Store.appended file words.length (merged asked.disk file words).length] }) := by
    unfold merged at stored
    simp only [keep, Store.append, stored]
    rfl
  rw [bind_of_ok (m := pathOf (.str file)) rfl, bind_of_ok keeps, bind_of_ok (m := inform _) rfl,
    bind_of_ok (m := report _) rfl]
  exact ⟨_, _, rfl, rfl, rfl⟩

/-- Unless a file ends the survey, a run that is assisted gets the stored words. -/
theorem prepare (passes : ∀ p ∈ paths, Project.Searchable session.disk s.projectRoot p) :
    ∃ prepared ready, Batch.prepare s a paths session = (.ok prepared, ready) ∧
      prepared.vocabulary = (Store.vocabulary kept file translations).1 ∧ ready.disk = kept := by
  obtain ⟨_, seen, surveyed⟩ := (Project.survey_returns_iff session.disk s.projectRoot
    (Store.lexicon session.disk file).1 paths ⟨[], []⟩).2 passes
  have words : seen.words = missing s session.disk file paths := by rw [missing, surveyed]
  obtain ⟨asked, allowed⟩ := assists.asks
  rw [prepare_eq assists.path, surveyed]
  dsimp only
  rw [words, supply, if_neg asked, if_pos allowed]
  exact assists.complete _ _

/-- A run that is assisted ends with the rendering of its files under the stored words. -/
theorem runs (passes : ∀ p ∈ paths, Project.Searchable session.disk s.projectRoot p)
    {os : List Outcome} {d : Disk}
    (rendered : ∀ log, ∃ last, outcomes s mirror (Store.vocabulary kept file translations).1
      (order paths) ⟨kept, [], log⟩ = (.ok os, last) ∧ last.disk = d) :
    ∃ report after, Batch.run s mirror a paths session = (.ok report, after) ∧
      report.outcomes = os ∧ after.disk = d := by
  obtain ⟨prepared, ready, prepares, vocabulary, disk⟩ := assists.prepare passes
  obtain ⟨last, done, same⟩ := rendered (bench paths ready).run.log
  rw [← vocabulary, ← disk] at done
  rw [run_eq, bind_of_ok prepares, afterwards_eq_ok_iff.2 ⟨os, last, done, rfl, rfl⟩]
  exact ⟨_, _, rfl, rfl, same⟩

/-- A run that was assisted has rendered its files from the disk with the stored words. -/
theorem run {report : Report} {after : Session σ}
    (given : Batch.run s mirror a paths session = (.ok report, after)) :
    (∀ p ∈ paths, Project.Searchable session.disk s.projectRoot p) ∧
      ∃ log os last, outcomes s mirror (Store.vocabulary kept file translations).1 (order paths)
          ⟨kept, [], log⟩ = (.ok os, last) ∧
        report.outcomes = os ∧ report.remembered = last.run.memory.length ∧
        after.disk = last.disk := by
  rw [run_eq] at given
  obtain ⟨prepared, ready, prepares, given⟩ := bind_eq_ok.1 given
  have passes := searchable_of_prepare assists.path prepares
  obtain ⟨_, _, again, vocabulary, disk⟩ := assists.prepare passes
  rw [prepares] at again
  cases again
  obtain ⟨os, last, rendered, rfl, rfl⟩ := afterwards_eq_ok_iff.1 given
  rw [vocabulary, bench, disk] at rendered
  exact ⟨passes, _, os, last, rendered, rfl, rfl, rfl⟩

end Assists

/-! ## The run that does not ask -/

/-- A run that was assisted can be replayed without its assistant: a run over the same paths
    that does not ask, on the disk that the first one has left, comes to its report too.  Every
    path has the same verdict and the same rendition, as much is remembered, and every file is
    what it was, byte for byte.

    The sources must not have changed, and the two files of words must be files of their own.
    And the directory that the absolute path of a rendition names must have been there when the
    rendering began. -/
theorem run_replayed [Script.Parser] [Lexicon.Bundle] {report : Report} {after : Session σ}
    (assists : Assists s a paths session h file translations left kept)
    (given : run s mirror a paths session = (.ok report, after))
    (unchanged : ∀ p ∈ paths, Unchanged s.projectRoot session.disk after.disk p)
    (apart : ∀ p ∈ paths, Apart session.disk after.disk h file p)
    (placed : ∀ p ∈ paths, ∀ l bytes, LeadsTo after.disk p l bytes → HasPlace kept p)
    (log : Log) (peer : σ) :
    ∃ again last, run s.alone mirror a paths ⟨after.disk, log, peer⟩ = (.ok again, last) ∧
      again.outcomes.map Outcome.gist = report.outcomes.map Outcome.gist ∧
      again.remembered = report.remembered ∧
      ∀ l, last.disk.entry? l = after.disk.entry? l := by
  obtain ⟨passes, _, os, last, rendered, rfl, remembered, disk⟩ := assists.run given
  rw [disk] at unchanged apart placed ⊢
  obtain ⟨alike, untouched⟩ := outcomes_alike rendered fun p member =>
    placed p (mem_order.1 member)
  -- No rendition was written over the stored words.
  have stored : ∀ l, Lands last.disk file l → last.disk.entry? l = kept.entry? l :=
    fun l lands => untouched l fun p member rendition =>
      (apart p (mem_order.1 member)).rendition l lands (alike.lands_iff.2 rendition)
  have sources : ∀ p ∈ order paths, ∀ l bytes, LeadsTo last.disk p l bytes →
      kept.entry? l = some (.file bytes) := by
    intro p ordered l bytes leads
    have member := mem_order.1 ordered
    have before := Disk.entry_of_locate_file ((unchanged p member).file l bytes leads)
    exact assists.entry_kept before ((apart p member).handOff l bytes leads)
      fun lands => (apart p member).source l bytes leads (alike.lands_iff.2 lands)
  have searched : ∀ p ∈ paths, Project.Searchable last.disk s.projectRoot p :=
    fun p member => (unchanged p member).searchable (passes p member)
  -- The second run starts from the vocabulary of the first one.
  obtain ⟨prepared, second, prepares, vocabulary⟩ :=
    prepare_alone assists.path a ⟨last.disk, log, peer⟩ searched
  rw [assists.vocabulary alike stored, ← vocabulary] at rendered
  have abreast : Abreast kept last.disk (fun _ => False) kept last.disk :=
    ⟨.refl kept, alike, fun _ => nofun, fun _ _ => rfl, fun _ _ => rfl⟩
  obtain ⟨again, final, replayed, gists, memory, same⟩ := outcomes_again rendered
    (q := (bench paths ⟨last.disk, second, peer⟩ : Bench).run) rfl abreast alike sources
    fun p member => placed p (mem_order.1 member)
  have reported := (afterwards_eq_ok_iff (s := s)).2 ⟨again, final,
    (show outcomes _ _ _ _ (bench paths ⟨last.disk, second, peer⟩) = _ from replayed), rfl, rfl⟩
  have ran := bind_of_ok (f := afterwards s.alone mirror paths) prepares
  rw [← run_eq, afterwards_alone, reported] at ran
  refine ⟨_, _, ran, gists, ?_, same⟩
  rw [remembered]
  exact congrArg List.length memory.symm

/-! ## A site with a link to its own directory -/

open scoped Installed

/-- A translation of the unknown word. -/
def kiwiLexicon : Lexicon := [("Kiwi", "X")]

/-- An assistant that knows it. -/
def attentive : Assistant Unit := ⟨true, fun _ _ => return ⟨.ok (Json.textValues kiwiLexicon), []⟩⟩

/-- The file of words with the translation. -/
def kiwiWords : Entry := .file (Utf8.encodeLoose "\x7b\n  \"Kiwi\": \"X\"\n\x7d")

/-- A run that starts with the translation knows the word. -/
theorem lookup?_stored {disk : Disk} {file : Path}
    (load : Store.load disk file = (kiwiLexicon, [])) :
    (Store.lexicon disk file).1.lookup? "Kiwi" = some "X" := by
  have known : (Lexicon.merge [some Lexicon.Bundle.lexicon, some kiwiLexicon]).lookup? "Kiwi" =
      some (Text.ofString "X") :=
    Lexicon.lookup?_merge List.mem_cons_self (by decide) (List.cons_ne_nil _ _)
  simp only [Store.lexicon, load]
  exact known

theorem draft_stored {lexicon : Lexicon} (known : lexicon.lookup? "Kiwi" = some "X")
    (kind : FileKind.ofPath p = .document .json) (log : Log) :
    draft mirror ⟨lexicon, []⟩ p kiwiText ⟨[], log⟩ =
      (.ok ⟨⟨p, .document .json, .rendered .translated, Path.rendition p, []⟩, renderedEntry p,
        some (Json.write (.obj [("a", .str "X")]))⟩, ⟨kiwiLexicon, log⟩) := by
  have safe : Phrase.isSafe lexicon "Kiwi" = true := Phrase.isSafe_of_known known isSafe_kiwi
  have changes : Phrase.translateCounting lexicon "Kiwi" ⟨[], 0⟩ =
      (Text.ofString "X", ⟨kiwiLexicon, 1⟩) :=
    Phrase.translateCounting_of_known known (by decide) (by cbv) safe 0
  have visited : (Json.obj [("a", .str "Kiwi")]).mapLeaves (Phrase.translateCounting lexicon)
      ⟨[], 0⟩ = (.obj [("a", .str "X")], ⟨kiwiLexicon, 1⟩) := by
    change (Json.obj [("a", .str (Phrase.translateCounting lexicon "Kiwi" ⟨[], 0⟩).1)],
      (Phrase.translateCounting lexicon "Kiwi" ⟨[], 0⟩).2) = _
    rw [changes]
  simp only [draft, kind, draftDocument]
  rw [translateBy_of_no_strays, translateDocument, translateData, read_kiwiText]
  simp only [visited]
  rfl

/-- Settings of a site whose program is elsewhere. -/
def loopSettings : Settings :=
  { Settings.default [] with
    projectRoot := "/s", handOffFile := .str "/s/h", lexiconFile := .str "/s/w" }

theorem path_loopSettings : loopSettings.lexiconFile = .str "/s/w" := rfl

/-- A site with a directory `k` that is also reached by the link `l` in it. -/
def loopSite : Disk := ⟨"/s", [(["s"], .directory), (["s", "k"], .directory),
  (["s", "k", "l"], .link "."), (["s", "k", "x"], .link "y"),
  (["s", "x"], .directory), (["s", "x", "p.json"], .file (Utf8.encodeLoose kiwiText)),
  (["s", "y"], .directory), (["s", "y", "q.css"], .file [])]⟩

/-- The site with the translation. -/
def keptSite : Disk := loopSite.put ["s", "w"] kiwiWords

theorem load_loopSite : Store.load loopSite "/s/w" = ([], []) := by cbv

theorem alike_keptSite : Alike loopSite keptSite := by
  have free : Disk.Writable (loopSite.entry? ["s", "w"]) := by
    rw [show loopSite.entry? ["s", "w"] = none by cbv]
    trivial
  exact .put loopSite free _

theorem load_keptSite : Store.load keptSite "/s/w" = (kiwiLexicon, []) := by cbv

theorem directory_handOff : loopSite.isDirectory (Store.directoryOf "/s/h") = true := by cbv

theorem lands_handOff : Lands loopSite "/s/h" ["s", "h"] := by
  have free : loopSite.locate .creation "/s/h" = .ok (.free ["s", "h"]) := by cbv
  exact ⟨_, free, trivial, rfl⟩

/-- The site while the word is asked for. -/
def askedLoopSite : Disk :=
  loopSite.put ["s", "h"] (.file (Utf8.encodeLoose "\x7b\n  \"Kiwi\": \"\"\n\x7d"))

theorem saveHandOff_loopSite : Store.saveHandOff ["Kiwi"] "/s/h" loopSite =
    (.ok (), askedLoopSite) :=
  Store.write_of_lands directory_handOff lands_handOff (by cbv)

theorem write_loopSite : Store.write "/s/w" (Json.textValues kiwiLexicon) loopSite =
    (.ok (), keptSite) := by
  have free : loopSite.locate .creation "/s/w" = .ok (.free ["s", "w"]) := by cbv
  exact Store.write_of_lands (by cbv) ⟨_, free, trivial, rfl⟩ (by cbv)

theorem assists_loopSite {paths : List Path} (log : Log)
    (wanted : missing loopSettings loopSite "/s/w" paths = [Text.ofString "Kiwi"]) :
    Assists loopSettings attentive paths ⟨loopSite, log, ()⟩ "/s/h" "/s/w"
      (Json.textValues kiwiLexicon) loopSite keptSite where
  handOff := rfl
  path := rfl
  asks := by
    rw [wanted]
    exact ⟨List.cons_ne_nil _ _, rfl⟩
  fetches := by
    have removed : (Store.deleteHandOff "/s/h" askedLoopSite).2 = loopSite := by cbv
    rw [wanted]
    exact ⟨_, saveHandOff_loopSite, rfl, removed.symm⟩
  given := List.cons_ne_nil _ _
  textual := Json.textual_textValues _
  nodup := by decide
  stored := by
    rw [merged, load_loopSite]
    exact write_loopSite

/-- The document by the path of its directory. -/
def page : Path := "/s/x/p.json"

theorem kind_page : FileKind.ofPath page = .document .json := by decide

theorem rendition_page : Path.rendition page = "/s/x/p-ar.json" := by decide

theorem directory_page : Path.directory (Path.absolute "/s" "/s/x/p-ar.json") = "/s/x" := by decide

theorem leadsTo_page : LeadsTo loopSite page ["s", "x", "p.json"] (Utf8.encodeLoose kiwiText) := by
  cbv

theorem read_page : Project.read loopSite "/s" [] page = .ok kiwiText :=
  Project.read_of_readText (by simp [kind_page]) (by cbv) (by cbv)

theorem missing_page : missing loopSettings loopSite "/s/w" [page] = [Text.ofString "Kiwi"] := by
  have unknown := lookup?_kiwi load_loopSite
  rw [missing, show loopSettings.projectRoot = "/s" from rfl,
    survey_kiwi unknown kind_page read_page]

theorem handedOverAt_loopSite : HandedOverAt loopSite "/s/h" ["s", "h"] :=
  ⟨loopSite, Disk.makeDirectories_of_isDirectory directory_handOff, lands_handOff⟩

theorem lands_words : Lands keptSite "/s/w" ["s", "w"] := by
  have found : keptSite.locate .creation "/s/w" = .ok (.there ["s", "w"] kiwiWords) := by cbv
  exact ⟨_, found, trivial, rfl⟩

theorem isDirectory_keptSite : keptSite.isDirectory "/s/x" = true := by cbv

theorem opens_page : Project.Opens "/s" (Path.rendition page) keptSite keptSite
    ["s", "x", "p-ar.json"] := by
  have inside : Project.isWithin keptSite "/s" "/s/x/p-ar.json" = .ok true := by cbv
  have found : keptSite.locate .creation "/s/x/p-ar.json" = .ok (.free ["s", "x", "p-ar.json"]) := by
    cbv
  rw [rendition_page]
  refine Project.opens_of_isDirectory inside ?_ ⟨_, found, trivial, rfl⟩
  rw [show keptSite.cwd = "/s" from rfl, directory_page]
  exact isDirectory_keptSite

theorem placed_page : HasPlace keptSite page := by
  rw [HasPlace, rendition_page, show keptSite.cwd = "/s" from rfl, directory_page]
  exact isDirectory_keptSite

/-- The rendition of the document. -/
def renderedPage : Bytes := Utf8.encodeLoose (Json.write (.obj [("a", .str "X")]))

theorem encode_renderedPage :
    Utf8.encode (Json.write (.obj [("a", .str "X")])) = .ok renderedPage :=
  by cbv

/-- A document with the word is translated wherever its rendition is opened. -/
theorem outcome_stored {disk made : Disk} {l : Location}
    (load : Store.load disk "/s/w" = (kiwiLexicon, []))
    (kind : FileKind.ofPath p = .document .json)
    (found : Project.read disk "/s" [] p = .ok kiwiText)
    (opens : Project.Opens "/s" (Path.rendition p) disk made l) (log : Log) :
    outcome loopSettings mirror ⟨(Store.lexicon disk "/s/w").1, []⟩ p ⟨disk, [], log⟩ =
      (.ok ⟨p, .document .json, .rendered .translated, Path.rendition p, []⟩,
        ⟨made.put l (.file renderedPage), kiwiLexicon, log ++ [renderedEntry p]⟩) :=
  outcome_of_opens (s := loopSettings) (b := ⟨disk, [], log⟩) found
    (draft_stored (lookup?_stored load) kind log) rfl opens encode_renderedPage

/-- The site with the rendition of the document. -/
def donePage : Disk := keptSite.put ["s", "x", "p-ar.json"] (.file renderedPage)

/-- The document is translated by the assistant, and translated again without it. -/
theorem run_replayed_page :
    let session : Session Unit := ⟨loopSite, [], ()⟩
    ∃ report after,
      Assists loopSettings attentive [page] session "/s/h" "/s/w" (Json.textValues kiwiLexicon)
        loopSite keptSite ∧
      run loopSettings none attentive [page] session = (.ok report, after) ∧
      (∀ p ∈ [page], Unchanged "/s" loopSite after.disk p) ∧
      (∀ p ∈ [page], Apart loopSite after.disk "/s/h" "/s/w" p) ∧
      (∀ p ∈ [page], ∀ l bytes, LeadsTo after.disk p l bytes → HasPlace keptSite p) ∧
      report.outcomes.map Outcome.verdict = [.rendered .translated] ∧
      ∃ again last, run loopSettings.alone none attentive [page] ⟨after.disk, [], ()⟩ =
          (.ok again, last) ∧
        again.outcomes.map Outcome.gist = report.outcomes.map Outcome.gist ∧
        again.remembered = report.remembered ∧
        ∀ l, last.disk.entry? l = after.disk.entry? l := by
  intro session
  have assists : Assists loopSettings attentive [page] session "/s/h" "/s/w" _ loopSite keptSite :=
    assists_loopSite [] missing_page
  have there : LeadsTo keptSite page ["s", "x", "p.json"] (Utf8.encodeLoose kiwiText) :=
    Disk.locate_file_of_keeps alike_keptSite.keeps leadsTo_page (by cbv)
  have found : Project.read keptSite "/s" [] page = .ok kiwiText := by
    rw [Project.read_links alike_keptSite.cwd alike_keptSite.link? leadsTo_page there]
    exact read_page
  have ordered : order [page] = [page] := by cbv
  have passes : ∀ p ∈ [page], Project.Searchable loopSite "/s" p :=
    (Project.survey_returns_iff loopSite "/s" (Store.lexicon loopSite "/s/w").1 [page]
      ⟨[], []⟩).1 ⟨_, _, survey_kiwi (lookup?_kiwi load_loopSite) kind_page read_page⟩
  have rendered : ∀ log, ∃ last, outcomes loopSettings none
      (Store.vocabulary keptSite "/s/w" (Json.textValues kiwiLexicon)).1 (order [page])
        ⟨keptSite, [], log⟩ = (.ok [⟨page, .document .json, .rendered .translated,
          Path.rendition page, []⟩], last) ∧ last.disk = donePage := by
    intro log
    rw [ordered, assists.vocabulary (.refl keptSite) fun _ _ => rfl]
    exact ⟨_, outcomes_singleton (outcome_stored load_keptSite kind_page found opens_page log), rfl⟩
  obtain ⟨report, after, given, outcomes, disk⟩ := assists.runs passes rendered
  have alike : Alike keptSite donePage := .put keptSite opens_page.2.2.writable _
  have still : LeadsTo donePage page ["s", "x", "p.json"] (Utf8.encodeLoose kiwiText) :=
    Disk.locate_file_of_keeps alike.keeps there (by cbv)
  have unchanged : ∀ p ∈ [page], Unchanged "/s" loopSite after.disk p := by
    rw [disk, List.forall_mem_singleton]
    exact .of_keeps (alike_keptSite.trans alike).keeps (alike_keptSite.trans alike).link?
      leadsTo_page (Disk.entry_of_locate_file still)
  have apart : ∀ p ∈ [page], Apart loopSite after.disk "/s/h" "/s/w" p := by
    rw [disk, List.forall_mem_singleton]
    exact .of_ne handedOverAt_loopSite (alike.lands_iff.2 lands_words) still
      (alike.lands_iff.2 opens_page.2.2) (by decide) (by decide) (by decide)
  have placed : ∀ p ∈ [page], ∀ l bytes, LeadsTo after.disk p l bytes → HasPlace keptSite p := by
    rw [List.forall_mem_singleton]
    exact fun _ _ _ => placed_page
  refine ⟨report, after, assists, given, unchanged, apart, placed, ?_,
    run_replayed assists given unchanged apart placed [] ()⟩
  rw [outcomes]
  rfl

/-! ## Renditions whose directories are elsewhere -/

/-- The document by way of the link: the path says that it is in `k/x`. -/
def pageUp : Path := "/s/k/l/../x/p.json"

/-- A style sheet by way of the link: the path says that it is in `k/y`. -/
def sheetUp : Path := "/s/k/l/../y/q.css"

/-- A mirror that changes nothing. -/
def plain : Mirror := fun t => .ok t

theorem kind_pageUp : FileKind.ofPath pageUp = .document .json := by decide

theorem kind_sheetUp : FileKind.ofPath sheetUp = .stylesheet := by decide

theorem rendition_pageUp : Path.rendition pageUp = "/s/k/l/../x/p-ar.json" := by decide

theorem rendition_sheetUp : Path.rendition sheetUp = "/s/k/l/../y/q-ar.css" := by decide

theorem leadsTo_pageUp :
    LeadsTo loopSite pageUp ["s", "x", "p.json"] (Utf8.encodeLoose kiwiText) := by
  cbv

theorem leadsTo_sheetUp : LeadsTo loopSite sheetUp ["s", "y", "q.css"] [] := by cbv

theorem read_pageUp : Project.read loopSite "/s" [] pageUp = .ok kiwiText :=
  Project.read_of_readText (by simp [kind_pageUp]) (by cbv) (by cbv)

theorem read_sheetUp : Project.read loopSite "/s" [] sheetUp = .ok [] :=
  Project.read_of_readText (by simp [kind_sheetUp]) (by cbv) (by cbv)

theorem lands_pageUp : Lands loopSite (Path.rendition pageUp) ["s", "x", "p-ar.json"] := by
  have found : loopSite.locate .creation "/s/k/l/../x/p-ar.json" =
      .ok (.free ["s", "x", "p-ar.json"]) := by cbv
  exact ⟨.free _, rendition_pageUp ▸ found, trivial, rfl⟩

theorem lands_sheetUp : Lands loopSite (Path.rendition sheetUp) ["s", "y", "q-ar.css"] := by
  have found : loopSite.locate .creation "/s/k/l/../y/q-ar.css" =
      .ok (.free ["s", "y", "q-ar.css"]) := by cbv
  exact ⟨.free _, rendition_sheetUp ▸ found, trivial, rfl⟩

theorem isWithin_pageUp : Project.isWithin loopSite "/s" (Path.rendition pageUp) = .ok true := by
  rw [rendition_pageUp]
  cbv

theorem isWithin_sheetUp : Project.isWithin loopSite "/s" (Path.rendition sheetUp) = .ok true := by
  rw [rendition_sheetUp]
  cbv

theorem directory_pageUp :
    Path.directory (Path.absolute "/s" (Path.rendition pageUp)) = "/s/k/x" := by decide

theorem directory_sheetUp :
    Path.directory (Path.absolute "/s" (Path.rendition sheetUp)) = "/s/k/y" := by decide

/-- The kept site with the directory that the link `x` leads to. -/
def openSite : Disk := keptSite.put ["s", "k", "y"] .directory

theorem makes_sheetUp : Disk.makeDirectories "/s/k/y" keptSite = (.ok (), openSite) := by cbv

theorem adds_openSite : Disk.Adds keptSite openSite := by
  have adds := Disk.makeDirectories_adds "/s/k/y" keptSite
  rwa [makes_sheetUp] at adds

section Later

variable {d made : Disk} (keeps : Disk.Keeps loopSite d)
  (links : ∀ l, d.link? l = loopSite.link? l)

include keeps links

theorem read_later {l : Location} {bytes : Bytes} (leads : LeadsTo loopSite p l bytes)
    (now : d.entry? l = some (.file bytes)) :
    Project.read d "/s" [] p = Project.read loopSite "/s" [] p :=
  Project.read_links keeps.cwd links leads (Disk.locate_file_of_keeps keeps leads now)

theorem opens_later {l : Location} (within : Project.isWithin loopSite "/s" p = .ok true)
    (lands : Lands loopSite p l) (writable : Disk.Writable (d.entry? l))
    (directory : d.isDirectory (Path.directory (Path.absolute "/s" p)) = true) :
    Project.Opens "/s" p d d l := by
  refine Project.opens_of_isDirectory ?_ ?_ (lands.of_keeps keeps writable)
  · rw [Project.isWithin_links keeps.cwd links, within]
  · rw [keeps.cwd]
    exact directory

end Later

theorem opens_sheetUp :
    Project.Opens "/s" (Path.rendition sheetUp) keptSite openSite ["s", "y", "q-ar.css"] := by
  have within := Project.isWithin_links alike_keptSite.cwd alike_keptSite.link? "/s"
    (Path.rendition sheetUp)
  rw [isWithin_sheetUp] at within
  have kept : Lands keptSite (Path.rendition sheetUp) ["s", "y", "q-ar.css"] :=
    alike_keptSite.lands_iff.2 lands_sheetUp
  have free : Disk.Writable (openSite.entry? ["s", "y", "q-ar.css"]) := by
    rw [show openSite.entry? ["s", "y", "q-ar.css"] = none by cbv]
    trivial
  refine ⟨?_, ?_, kept.of_keeps adds_openSite.keeps free⟩
  · rw [Project.checkTarget, within]
    rfl
  · exact directory_sheetUp ▸ makes_sheetUp

/-- The site after the first run. -/
def leftSite : Disk := openSite.put ["s", "y", "q-ar.css"] (.file [])

theorem alike_leftSite : Alike openSite leftSite := .put openSite opens_sheetUp.2.2.writable _

theorem load_leftSite : Store.load leftSite "/s/w" = (kiwiLexicon, []) := by cbv

theorem keeps_leftSite : Disk.Keeps loopSite leftSite :=
  alike_keptSite.keeps.trans (adds_openSite.keeps.trans alike_leftSite.keeps)

theorem links_leftSite (l : Location) : leftSite.link? l = loopSite.link? l :=
  (alike_leftSite.link? l).trans ((adds_openSite.link? l).trans (alike_keptSite.link? l))

theorem outcome_sheetUp {words : Vocabulary} {disk made : Disk} {l : Location}
    (found : Project.read disk "/s" [] sheetUp = .ok [])
    (opens : Project.Opens "/s" (Path.rendition sheetUp) disk made l) (run : Run) :
    outcome loopSettings (some plain) words sheetUp ⟨disk, run⟩ =
      (.ok ⟨sheetUp, .stylesheet, .rendered .translated, Path.rendition sheetUp, []⟩,
        ⟨made.put l (.file []), { run with log := run.log ++ [renderedEntry sheetUp] }⟩) := by
  have drafted : draft (some plain) words sheetUp [] run =
      (.ok ⟨⟨sheetUp, .stylesheet, .rendered .translated, Path.rendition sheetUp, []⟩,
        renderedEntry sheetUp, some []⟩, run) := by
    rw [draft, kind_sheetUp]
    rfl
  exact outcome_of_opens (s := loopSettings) (b := ⟨disk, run⟩) found drafted rfl opens rfl

theorem order_up : order [pageUp, sheetUp] = [pageUp, sheetUp] := by cbv

theorem survey_up : Project.survey loopSite "/s" (Store.lexicon loopSite "/s/w").1
    [pageUp, sheetUp] ⟨[], []⟩ = (.ok (), ⟨["Kiwi"], []⟩) := by
  have passed : ∀ seen, Project.surveyFile loopSite "/s" (Store.lexicon loopSite "/s/w").1
      sheetUp seen = (.ok (), seen) := by
    intro seen
    rw [Project.surveyFile, kind_sheetUp]
  exact (bind_of_ok (surveyFile_kiwi (lookup?_kiwi load_loopSite) kind_pageUp read_pageUp)).trans
    (bind_of_ok (passed _))

theorem passes_up : ∀ p ∈ [pageUp, sheetUp], Project.Searchable loopSite "/s" p :=
  (Project.survey_returns_iff loopSite "/s" (Store.lexicon loopSite "/s/w").1 _ ⟨[], []⟩).1
    ⟨_, _, survey_up⟩

theorem assists_up : Assists loopSettings attentive [pageUp, sheetUp] ⟨loopSite, [], ()⟩ "/s/h"
    "/s/w" (Json.textValues kiwiLexicon) loopSite keptSite :=
  assists_loopSite [] (by rw [missing, show loopSettings.projectRoot = "/s" from rfl, survey_up])

/-- The first run fails to make the directory of the first rendition, and makes that of the
    second one. -/
theorem run_up : ∃ report after,
    run loopSettings (some plain) attentive [pageUp, sheetUp] ⟨loopSite, [], ()⟩ =
      (.ok report, after) ∧ after.disk = leftSite ∧
      report.outcomes.map Outcome.verdict = [.failed, .rendered .translated] := by
  have stuck : Disk.makeDirectories "/s/k/x" keptSite =
      (.error (.refused .exists "/s/k/x"), keptSite) := by cbv
  have page : Project.read keptSite "/s" [] pageUp = .ok kiwiText := by
    rw [read_later alike_keptSite.keeps alike_keptSite.link? leadsTo_pageUp (by cbv),
      read_pageUp]
  have sheet : Project.read keptSite "/s" [] sheetUp = .ok [] := by
    rw [read_later alike_keptSite.keeps alike_keptSite.link? leadsTo_sheetUp (by cbv),
      read_sheetUp]
  have refused : ∀ content, Project.write "/s" (Path.rendition pageUp) content keptSite =
      (.error (.access (.refused .exists "/s/k/x")), keptSite) := by
    refine Project.write_of_stuck ?_ (directory_pageUp ▸ stuck)
    rw [Project.checkTarget, Project.isWithin_links alike_keptSite.cwd alike_keptSite.link?,
      isWithin_pageUp]
    rfl
  have rendered : ∀ log, ∃ last, outcomes loopSettings (some plain)
      (Store.vocabulary keptSite "/s/w" (Json.textValues kiwiLexicon)).1 (order [pageUp, sheetUp])
        ⟨keptSite, [], log⟩ = (.ok [failedOutcome pageUp
          (.project (.access (.refused .exists "/s/k/x"))),
          ⟨sheetUp, .stylesheet, .rendered .translated, Path.rendition sheetUp, []⟩], last) ∧
        last.disk = leftSite := by
    intro log
    rw [order_up, assists_up.vocabulary (.refl keptSite) fun _ _ => rfl]
    have failed : outcome loopSettings (some plain)
        ⟨(Store.lexicon keptSite "/s/w").1, []⟩ pageUp ⟨keptSite, [], log⟩ = _ :=
      outcome_of_refused (s := loopSettings) (b := ⟨keptSite, [], log⟩) page
        (draft_stored (lookup?_stored load_keptSite) kind_pageUp log) rfl (refused _)
    exact ⟨_, outcomes_cons failed (outcomes_singleton (outcome_sheetUp sheet opens_sheetUp _)),
      rfl⟩
  obtain ⟨report, after, given, outcomes, disk⟩ := assists_up.runs passes_up rendered
  refine ⟨report, after, given, disk, ?_⟩
  rw [outcomes]
  rfl

theorem pageUp_leftSite : leftSite.entry? ["s", "x", "p.json"] =
    some (.file (Utf8.encodeLoose kiwiText)) := by cbv

theorem sheetUp_leftSite : leftSite.entry? ["s", "y", "q.css"] = some (.file []) := by
  cbv

theorem writable_leftSite : Disk.Writable (leftSite.entry? ["s", "x", "p-ar.json"]) ∧
    Disk.Writable (leftSite.entry? ["s", "y", "q-ar.css"]) := by
  rw [show leftSite.entry? ["s", "x", "p-ar.json"] = none by cbv,
    show leftSite.entry? ["s", "y", "q-ar.css"] = some (.file []) by cbv]
  exact ⟨trivial, trivial⟩

theorem unchanged_up : ∀ p ∈ [pageUp, sheetUp], Unchanged "/s" loopSite leftSite p := by
  have page : Unchanged "/s" loopSite leftSite pageUp :=
    .of_keeps keeps_leftSite links_leftSite leadsTo_pageUp pageUp_leftSite
  have sheet : Unchanged "/s" loopSite leftSite sheetUp :=
    .of_keeps keeps_leftSite links_leftSite leadsTo_sheetUp sheetUp_leftSite
  exact List.forall_mem_cons.2 ⟨page, List.forall_mem_singleton.2 sheet⟩

theorem apart_up : ∀ p ∈ [pageUp, sheetUp], Apart loopSite leftSite "/s/h" "/s/w" p := by
  have writable : Disk.Writable (openSite.entry? ["s", "w"]) := by
    rw [show openSite.entry? ["s", "w"] = some kiwiWords by cbv]
    trivial
  have words : Lands leftSite "/s/w" ["s", "w"] :=
    alike_leftSite.lands_iff.2 (lands_words.of_keeps adds_openSite.keeps writable)
  have page : Apart loopSite leftSite "/s/h" "/s/w" pageUp :=
    .of_ne handedOverAt_loopSite words
      (Disk.locate_file_of_keeps keeps_leftSite leadsTo_pageUp pageUp_leftSite)
      (lands_pageUp.of_keeps keeps_leftSite writable_leftSite.1)
      (by decide) (by decide) (by decide)
  have sheet : Apart loopSite leftSite "/s/h" "/s/w" sheetUp :=
    .of_ne handedOverAt_loopSite words
      (Disk.locate_file_of_keeps keeps_leftSite leadsTo_sheetUp sheetUp_leftSite)
      (lands_sheetUp.of_keeps keeps_leftSite writable_leftSite.2)
      (by decide) (by decide) (by decide)
  exact List.forall_mem_cons.2 ⟨page, List.forall_mem_singleton.2 sheet⟩

/-- The run after it finds both directories. -/
theorem run_up_alone : ∃ again last,
    run loopSettings.alone (some plain) attentive [pageUp, sheetUp] ⟨leftSite, [], ()⟩ =
      (.ok again, last) ∧
      again.outcomes.map Outcome.verdict = [.rendered .translated, .rendered .translated] := by
  have passes : ∀ p ∈ [pageUp, sheetUp], Project.Searchable leftSite "/s" p :=
    fun p member => (unchanged_up p member).searchable (passes_up p member)
  have opens : Project.Opens "/s" (Path.rendition pageUp) leftSite leftSite
      ["s", "x", "p-ar.json"] := by
    refine opens_later keeps_leftSite links_leftSite isWithin_pageUp lands_pageUp
      writable_leftSite.1 ?_
    rw [directory_pageUp]
    cbv
  have page : Project.read leftSite "/s" [] pageUp = .ok kiwiText := by
    rw [read_later keeps_leftSite links_leftSite leadsTo_pageUp pageUp_leftSite, read_pageUp]
  -- The disk once the first file has its rendition.
  have alike := Alike.put leftSite writable_leftSite.1 renderedPage
  generalize grown : leftSite.put ["s", "x", "p-ar.json"] (.file renderedPage) = next at alike
  have keeps := keeps_leftSite.trans alike.keeps
  have links : ∀ l, next.link? l = loopSite.link? l := fun l =>
    (alike.link? l).trans (links_leftSite l)
  have held : ∀ l, l ≠ (["s", "x", "p-ar.json"] : Location) →
      next.entry? l = leftSite.entry? l := by
    intro l other
    rw [← grown, Disk.entry?_put_of_ne _ other]
  have sheet : Project.read next "/s" [] sheetUp = .ok [] := by
    rw [read_later keeps links leadsTo_sheetUp, read_sheetUp]
    rw [held _ (by decide), sheetUp_leftSite]
  have opensSheet : Project.Opens "/s" (Path.rendition sheetUp) next next
      ["s", "y", "q-ar.css"] := by
    refine opens_later keeps links isWithin_sheetUp lands_sheetUp ?_ ?_
    · rw [held _ (by decide)]
      exact writable_leftSite.2
    · have there : leftSite.isDirectory "/s/k/y" = true := by cbv
      rw [directory_sheetUp]
      exact Disk.isDirectory_of_keeps alike.keeps there
  have first : ∀ log, outcome loopSettings (some plain) ⟨(Store.lexicon leftSite "/s/w").1, []⟩
      pageUp ⟨leftSite, [], log⟩ =
        (.ok ⟨pageUp, .document .json, .rendered .translated, Path.rendition pageUp, []⟩,
          ⟨next, kiwiLexicon, log ++ [renderedEntry pageUp]⟩) := by
    intro log
    rw [← grown]
    exact outcome_stored load_leftSite kind_pageUp page opens log
  obtain ⟨again, last, given, outcomes⟩ := runs_alone (s := loopSettings) path_loopSettings
    attentive ⟨leftSite, [], ()⟩ passes fun log => by
      rw [order_up]
      exact ⟨_, outcomes_cons (first log) (outcomes_singleton (outcome_sheetUp sheet opensSheet _))⟩
  refine ⟨again, last, given, ?_⟩
  rw [outcomes]
  rfl

/-- Where a rendition's directory is made by another one, the second run can do what the first
    one could not: the document that has failed is translated. -/
theorem run_not_replayed_up :
    let session : Session Unit := ⟨loopSite, [], ()⟩
    ∃ report after again last,
      Assists loopSettings attentive [pageUp, sheetUp] session "/s/h" "/s/w"
        (Json.textValues kiwiLexicon) loopSite keptSite ∧
      run loopSettings (some plain) attentive [pageUp, sheetUp] session = (.ok report, after) ∧
      (∀ p ∈ [pageUp, sheetUp], Unchanged "/s" loopSite after.disk p) ∧
      (∀ p ∈ [pageUp, sheetUp], Apart loopSite after.disk "/s/h" "/s/w" p) ∧
      run loopSettings.alone (some plain) attentive [pageUp, sheetUp] ⟨after.disk, [], ()⟩ =
        (.ok again, last) ∧
      report.outcomes.map Outcome.verdict = [.failed, .rendered .translated] ∧
      again.outcomes.map Outcome.verdict = [.rendered .translated, .rendered .translated] := by
  intro session
  obtain ⟨report, after, given, disk, verdicts⟩ := run_up
  obtain ⟨again, last, replayed, others⟩ := run_up_alone
  refine ⟨report, after, again, last, assists_up, given, ?_, ?_, ?_, verdicts, others⟩ <;>
    rw [disk]
  · exact unchanged_up
  · exact apart_up
  · exact replayed

end Arabize.Batch
