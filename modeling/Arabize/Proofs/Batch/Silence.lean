import Mathlib.Data.List.Permutation
import Arabize.Lexicon.Bundled
import Arabize.Proofs.Batch.Beside
import Arabize.Proofs.Lexicon.HandOff
import Arabize.Proofs.Phrase.Unknown
import Arabize.Proofs.Project.Alike
import Arabize.Script.Grammar.Reading

/-! # Assistants that have nothing to say

A run whose assistant fails, or knows no word, is the run that does not ask at all.  All that
is left of the asking is what the hand-off file has touched, and no other file can tell the
two runs apart as long as no path that is looked up leads over that.
-/

namespace Arabize.Batch

open Disk (Avoids Beside Passable Touches)

variable {σ : Type} {s : Settings} {mirror : Option Mirror} {a : Assistant σ} {paths : List Path}
  {session : Session σ} {words : Missing.Words} {p : Path}

/-- An assistant that gives no translations, whatever is asked and whoever asks. -/
def Silent (a : Assistant σ) : Prop :=
  ∀ disk p peer, (∃ why, (a.ask disk p peer).1.words = .error why) ∨
    (a.ask disk p peer).1.words = .ok []

/-- The paths that a run looks up besides that of the hand-off file. -/
def lookedUp (s : Settings) (cwd : Path) (paths : List Path) : List Path :=
  s.lexiconFile.text?.toList ++ paths.flatMap (renderingPaths s cwd)

/-! ## Asking in vain -/

theorem handOver_silent (silent : Silent a) (words : Missing.Words) (p : Path)
    (session : Session σ) : ∃ answer asked, handOver a words p session = (answer, asked) ∧
      asked.disk = (Store.saveHandOff words p session.disk).2 ∧
        ∀ translations, answer = .ok translations → translations = [] := by
  unfold handOver
  rcases Store.saveHandOff words p session.disk with ⟨e | _, saved⟩
  · exact ⟨_, _, rfl, rfl, nofun⟩
  · refine ⟨_, _, rfl, rfl, fun translations given => ?_⟩
    rcases silent saved p session.peer with ⟨why, failed⟩ | empty
    · rw [failed] at given
      cases given
    · rw [empty] at given
      cases given
      rfl

theorem fetchAt_silent (silent : Silent a) (passable : Passable p) (words : Missing.Words)
    (session : Session σ) :
    ∃ after, fetchAt a words p session = (.ok [], after) ∧
      after.disk = leftBehind words p session.disk := by
  obtain ⟨answer, asked, answered, saved, empty⟩ := handOver_silent silent words p session
  rw [leftBehind, ← saved]
  unfold fetchAt
  rw [bind_of_ok (a := answer) (t := asked) (by simp only [answered])]
  cases answer with
  | ok translations =>
    obtain rfl := empty translations rfl
    obtain ⟨log, cleared⟩ := clearHandOff_of_passable passable asked
    exact ⟨_, bind_of_ok cleared, rfl⟩
  | error why =>
    obtain ⟨log, cleared⟩ := clearHandOff_of_passable passable
      { asked with log := asked.log ++ [askingFailed why] }
    exact ⟨_, (bind_of_ok rfl).trans (bind_of_ok cleared), rfl⟩

theorem complete_silent [Lexicon.Bundle] (silent : Silent a) (handOff : s.handOffFile = .str p)
    (passable : Passable p) (lexicon : Lexicon) (words : Missing.Words) (session : Session σ) :
    ∃ after, complete s a lexicon words session =
        (.ok ⟨⟨lexicon, []⟩, words.length, 0⟩, after) ∧
      after.disk = leftBehind words p session.disk := by
  unfold complete
  rw [bind_of_ok (m := inform _) rfl, handOff]
  generalize session.log ++ [_] = told
  obtain ⟨after, fetched, left⟩ :=
    fetchAt_silent silent passable words { session with log := told }
  exact ⟨_, (bind_of_ok fetched).trans (bind_of_ok rfl), left⟩

/-! ## Preparing a vocabulary in vain -/

/-- To ask in vain supplies what not to ask supplies. -/
theorem supply_silent [Lexicon.Bundle] (silent : Silent a) (handOff : s.handOffFile = .str p)
    (passable : Passable p) (lexicon : Lexicon) (words : Missing.Words) (session : Session σ) :
    ∃ prepared one other, supply s a lexicon words session = (.ok prepared, one) ∧
      supply s.alone a lexicon words session = (.ok prepared, other) ∧ prepared.fetched = 0 ∧
      other.disk = session.disk ∧
      (one.disk = session.disk ∨ one.disk = leftBehind words p session.disk) := by
  obtain ⟨log, alone⟩ := supply_alone s a lexicon words session
  unfold supply at alone ⊢
  by_cases known : words = []
  · subst known
    exact ⟨_, _, _, rfl, alone, rfl, rfl, .inl rfl⟩
  · simp only [known, if_false] at alone ⊢
    by_cases asks : (s.asksService && a.isReady) = true
    · obtain ⟨after, completed, left⟩ := complete_silent silent handOff passable lexicon words session
      simp only [asks, if_true]
      exact ⟨_, _, _, completed, alone, rfl, rfl, .inr left⟩
    · simp only [asks, Bool.false_eq_true, if_false]
      exact ⟨_, _, _, rfl, alone, rfl, rfl, .inl rfl⟩

theorem prepare_silent [Script.Parser] [Lexicon.Bundle] (silent : Silent a)
    (handOff : s.handOffFile = .str p) (passable : Passable p)
    (directory : session.disk.isDirectory (Store.directoryOf p) = true)
    (paths : List Path) :
    ∃ prepared one other, prepare s a paths session = (prepared, one) ∧
      prepare s.alone a paths session = (prepared, other) ∧
      (∀ ready, prepared = .ok ready → ready.fetched = 0) ∧ other.disk = session.disk ∧
      Beside (Touches session.disk p) session.disk one.disk session.disk := by
  have still : Beside (Touches session.disk p) session.disk session.disk session.disk :=
    .of_entry rfl fun _ _ => rfl
  by_cases named : ∃ file, s.lexiconFile = .str file
  · obtain ⟨file, path⟩ := named
    rw [prepare_eq path, prepare_eq (s := s.alone) path]
    -- Both runs survey the project, since whether to ask is only decided after that.
    rcases surveyed : Project.survey session.disk s.projectRoot
      (Store.lexicon session.disk file).1 paths ⟨[], []⟩ with ⟨e | _, seen⟩
    · have also : Project.survey session.disk s.alone.projectRoot
          (Store.lexicon session.disk file).1 paths ⟨[], []⟩ = (.error e, seen) := surveyed
      rw [also]
      exact ⟨_, _, _, rfl, rfl, nofun, rfl, still⟩
    · have also : Project.survey session.disk s.alone.projectRoot
          (Store.lexicon session.disk file).1 paths ⟨[], []⟩ = (.ok (), seen) := surveyed
      rw [also]
      obtain ⟨prepared, one, other, here, there, fetched, same, left⟩ := supply_silent silent
        handOff passable (Store.lexicon session.disk file).1 seen.words
        { session with log := session.log ++ surveyLog session.disk file seen }
      refine ⟨_, _, _, here, there, ?_, same, ?_⟩
      · rintro ready ⟨⟩
        exact fetched
      · rcases left with left | left <;> rw [left]
        · exact still
        · exact Store.deleteHandOff_beside directory seen.words
  · have unnamed : ∀ file, s.lexiconFile ≠ .str file := fun file path => named ⟨file, path⟩
    rw [prepare_of_unnamed unnamed, prepare_of_unnamed (s := s.alone) unnamed]
    exact ⟨_, _, _, rfl, rfl, nofun, rfl, still⟩

/-! ## Running in vain -/

/-- A run whose assistant has nothing to say is the run that does not ask: it gives the same
    report or ends with the same fault, and nothing was fetched.  The disks differ in nothing
    but what the hand-off file has touched, so every source and every rendition holds the
    same, and so does the file of words. -/
theorem run_silent [Script.Parser] [Lexicon.Bundle] (silent : Silent a)
    (handOff : s.handOffFile = .str p) (passable : Passable p)
    (directory : session.disk.isDirectory (Store.directoryOf p) = true)
    (avoids : ∀ q ∈ lookedUp s session.disk.cwd paths,
      Avoids (Touches session.disk p) session.disk q) :
    ∃ result one other, run s mirror a paths session = (result, one) ∧
      run s.alone mirror a paths session = (result, other) ∧
      (∀ report, result = .ok report → report.fetched = 0) ∧
      (∀ q ∈ lookedUp s session.disk.cwd paths, one.disk.readBytes q = other.disk.readBytes q) ∧
      ∀ l, ¬ Touches session.disk p l → one.disk.entry? l = other.disk.entry? l := by
  obtain ⟨prepared, asked, kept, here, there, fetched, same, left⟩ :=
    prepare_silent silent handOff passable directory paths
  have left : BesideSession (Touches session.disk p) session.disk asked kept := by
    rw [BesideSession, same]
    exact left
  simp only [run_eq, afterwards_alone]
  cases prepared with
  | error e =>
    rw [bind_of_error here, bind_of_error there]
    exact ⟨_, _, _, rfl, rfl, nofun, fun q member => left.readBytes (avoids q member), left.entry⟩
  | ok ready =>
    rw [bind_of_ok here, bind_of_ok there]
    have renders : ∀ q ∈ paths, ∀ r ∈ renderingPaths s session.disk.cwd q,
        Avoids (Touches session.disk p) session.disk r := fun q member r among =>
      avoids r (List.mem_append_right _ (List.mem_flatMap.2 ⟨q, member, among⟩))
    obtain ⟨result, one, other, here, there, left⟩ :=
      (afterwards_lockstep mirror renders ready).runs left
    refine ⟨result, one, other, here, there, ?_, fun q member => left.readBytes (avoids q member),
      left.entry⟩
    rintro report rfl
    obtain ⟨os, last, _, rfl, _⟩ := afterwards_eq_ok_iff.1 here
    exact fetched ready rfl

/-! ## A site with an unknown word -/

open scoped Installed

/-- A document with one word, which the bundled lexicon does not know. -/
def kiwiText : Text := "\x7b\"a\": \"Kiwi\"\x7d"

theorem read_kiwiText : Json.read kiwiText = .ok (.obj [("a", .str "Kiwi")]) := by cbv

/-- A run without stored words knows what the bundled lexicon has. -/
theorem lookup?_unstored {disk : Disk} {file : Path} (load : Store.load disk file = ([], []))
    {w low : String} (lower : Text.lower w = Text.ofString low) :
    (Store.lexicon disk file).1.lookup? w =
      ((Lexicon.lastBundled? w).or (Lexicon.lastBundled? low)).map Text.ofString := by
  have ships : (Lexicon.Bundle.lexicon : Lexicon) = Lexicon.bundled := by
    with_reducible_and_instances rfl
  simp only [Store.lexicon, load, ships]
  exact Lexicon.lookup?_bundled lower

theorem lookup?_kiwi {disk : Disk} {file : Path} (load : Store.load disk file = ([], [])) :
    (Store.lexicon disk file).1.lookup? "Kiwi" = none := by
  have lower : Text.lower "Kiwi" = Text.ofString "kiwi" := by cbv
  have absent : (Lexicon.lastBundled? "Kiwi").or (Lexicon.lastBundled? "kiwi") = none := by decide
  rw [lookup?_unstored load lower, absent]
  rfl

theorem isSafe_kiwi : Phrase.isSafe [] "Kiwi" = true := by decide

theorem surveyFile_kiwi {disk : Disk} {root : Path} {lexicon : Lexicon}
    (unknown : lexicon.lookup? "Kiwi" = none) (kind : FileKind.ofPath p = .document .json)
    (found : Project.read disk root [] p = .ok kiwiText) :
    Project.surveyFile disk root lexicon p ⟨[], []⟩ = (.ok (), ⟨["Kiwi"], []⟩) := by
  have wanted : Missing.wantedIn lexicon "Kiwi" = [Text.ofString "Kiwi", Text.ofString "Kiwi"] :=
    Missing.wantedIn_of_unknown unknown (by cbv) (by cbv) isSafe_kiwi
  have searched : Missing.search lexicon Format.json.name kiwiText ⟨[], []⟩ =
      (.ok true, ⟨["Kiwi"], []⟩) := by
    change Missing.searchJson lexicon kiwiText ⟨[], []⟩ = _
    have visited : (Json.obj [("a", .str "Kiwi")]).mapLeaves (Missing.visit lexicon) [] =
        (.obj [("a", .str "Kiwi")],
          (Missing.wantedIn lexicon "Kiwi").foldl (fun ws w => Missing.add w ws) []) := rfl
    simp only [Missing.searchJson, read_kiwiText, visited, wanted]
    rfl
  simp only [Project.surveyFile, kind, found, searched]

theorem survey_kiwi {disk : Disk} {root : Path} {lexicon : Lexicon}
    (unknown : lexicon.lookup? "Kiwi" = none) (kind : FileKind.ofPath p = .document .json)
    (found : Project.read disk root [] p = .ok kiwiText) :
    Project.survey disk root lexicon [p] ⟨[], []⟩ = (.ok (), ⟨["Kiwi"], []⟩) :=
  bind_of_ok (surveyFile_kiwi unknown kind found)

theorem draft_kiwi {lexicon : Lexicon} (unknown : lexicon.lookup? "Kiwi" = none)
    (kind : FileKind.ofPath p = .document .json) (log : Log) :
    draft none ⟨lexicon, []⟩ p kiwiText ⟨[], log⟩ =
      (.ok ⟨⟨p, .document .json, .rendered .unchanged, Path.rendition p, []⟩, renderedEntry p,
        some (Json.write (.obj [("a", .str "Kiwi")]))⟩, ⟨[], log⟩) := by
  have stays : Phrase.translateCounting lexicon "Kiwi" ⟨[], 0⟩ = (Text.ofString "Kiwi", ⟨[], 0⟩) :=
    Phrase.translateCounting_of_unknown unknown (by cbv) (by cbv) 0
  have visited : (Json.obj [("a", .str "Kiwi")]).mapLeaves (Phrase.translateCounting lexicon)
      ⟨[], 0⟩ = (.obj [("a", .str "Kiwi")], ⟨[], 0⟩) := by
    change (Json.obj [("a", .str (Phrase.translateCounting lexicon "Kiwi" ⟨[], 0⟩).1)],
      (Phrase.translateCounting lexicon "Kiwi" ⟨[], 0⟩).2) = _
    rw [stays]
  simp only [draft, kind, draftDocument]
  rw [translateBy_of_no_strays, translateDocument, translateData, read_kiwiText]
  simp only [visited]
  rfl

/-- An assistant that is out of reach. -/
def offline : Assistant Unit := ⟨true, fun _ _ => return ⟨.error "offline", []⟩⟩

theorem silent_offline : Silent offline := fun _ _ _ => .inl ⟨_, rfl⟩

/-- A site with the document, and with the directory of the program. -/
def kiwiSite : Disk := ⟨"/site", [(["site"], .directory), (["site", "tool"], .directory),
  (["site", "home.json"], .file (Utf8.encodeLoose kiwiText))]⟩

theorem root_kiwiSite : (Settings.default "/site/tool").projectRoot = "/site" := by cbv

theorem kind_kiwiSite : FileKind.ofPath "/site/home.json" = .document .json := by decide

theorem read_kiwiSite : Project.read kiwiSite "/site" [] "/site/home.json" = .ok kiwiText :=
  Project.read_of_readText (by simp [kind_kiwiSite]) (by cbv) (by cbv)

theorem load_kiwiSite : Store.load kiwiSite "/site/tool/cached_words.json" = ([], []) := by cbv

theorem survey_kiwiSite : Project.survey kiwiSite "/site"
    (Store.lexicon kiwiSite "/site/tool/cached_words.json").1 ["/site/home.json"] ⟨[], []⟩ =
      (.ok (), ⟨["Kiwi"], []⟩) :=
  survey_kiwi (lookup?_kiwi load_kiwiSite) kind_kiwiSite read_kiwiSite

theorem missing_kiwiSite : missing (Settings.default "/site/tool") kiwiSite
    "/site/tool/cached_words.json" ["/site/home.json"] = [Text.ofString "Kiwi"] := by
  rw [missing, root_kiwiSite, survey_kiwiSite]

theorem directory_kiwiSite :
    kiwiSite.isDirectory (Store.directoryOf "/site/tool/missing_words.json") = true := by
  cbv

theorem locate_kiwiSite {aim : Disk.Aim} (known : aim = .creation ∨ aim = .removal) :
    kiwiSite.locate aim "/site/tool/missing_words.json" =
      .ok (.free ["site", "tool", "missing_words.json"]) := by
  rcases known with rfl | rfl <;> cbv

theorem touches_kiwiSite {l : Location}
    (touched : Touches kiwiSite "/site/tool/missing_words.json" l) :
    l = ([Text.ofString "site", "tool", "missing_words.json"] : Location) := by
  rcases touched with ⟨spot, there, _, rfl⟩ | ⟨e, there⟩
  · rw [locate_kiwiSite (.inl rfl)] at there
    cases there
    rfl
  · rw [locate_kiwiSite (.inr rfl)] at there
    cases there

/-- An assistant out of reach is asked for the word, and the run is as if it had not been. -/
theorem run_silent_offline :
    let s := Settings.default "/site/tool"
    let session : Session Unit := ⟨kiwiSite, [], ()⟩
    Silent offline ∧ s.handOffFile = .str "/site/tool/missing_words.json" ∧
    Passable "/site/tool/missing_words.json" ∧
    kiwiSite.isDirectory (Store.directoryOf "/site/tool/missing_words.json") = true ∧
    (∀ q ∈ lookedUp s "/site" ["/site/home.json"],
      Avoids (Touches kiwiSite "/site/tool/missing_words.json") kiwiSite q) ∧
    Asks s offline (missing s kiwiSite "/site/tool/cached_words.json" ["/site/home.json"]) ∧
    ∃ result one other, run s none offline ["/site/home.json"] session = (result, one) ∧
      run s.alone none offline ["/site/home.json"] session = (result, other) ∧
      (∀ report, result = .ok report → report.fetched = 0) ∧
      (∀ q ∈ lookedUp s "/site" ["/site/home.json"],
        one.disk.readBytes q = other.disk.readBytes q) ∧
      ∀ l, ¬ Touches kiwiSite "/site/tool/missing_words.json" l →
        one.disk.entry? l = other.disk.entry? l := by
  intro s session
  have passable : Passable "/site/tool/missing_words.json" :=
    (Disk.locate_eq_ok_iff.1 (locate_kiwiSite (.inl rfl))).1.1
  have avoids : ∀ q ∈ lookedUp s "/site" ["/site/home.json"],
      Avoids (Touches kiwiSite "/site/tool/missing_words.json") kiwiSite q := by
    intro q member
    refine Disk.avoids_of_linkCount (by decide) fun l onWay touched => ?_
    have outside : ∀ q ∈ lookedUp s "/site" ["/site/home.json"],
        (["site", "tool", "missing_words.json"] : Location) ∉
          Disk.visited (kiwiSite.origin q) (Path.components q) := by decide
    exact outside q member (touches_kiwiSite touched ▸ onWay)
  have asks : Asks s offline
      (missing s kiwiSite "/site/tool/cached_words.json" ["/site/home.json"]) := by
    refine ⟨?_, rfl⟩
    rw [missing_kiwiSite]
    exact List.cons_ne_nil _ _
  exact ⟨silent_offline, rfl, passable, directory_kiwiSite, avoids, asks,
    run_silent silent_offline rfl passable directory_kiwiSite avoids⟩

/-! ## A hand-off file that is a link -/

/-- Two paths that lead to the same place, links followed. -/
def NameTheSame (d : Disk) (p q : Path) : Prop :=
  ∃ one other, d.locate .target p = .ok one ∧ d.locate .target q = .ok other ∧
    one.location = other.location

/-- A site whose document is reached by a link to its directory. -/
def linkSite : Disk := ⟨"/site", [(["site"], .directory), (["site", "tool"], .directory),
  (["site", "pages"], .directory), (["site", "link"], .link "pages"),
  (["site", "pages", "home.json"], .file (Utf8.encodeLoose kiwiText))]⟩

/-- What is left of the site once the link was removed. -/
def brokenSite : Disk := linkSite.erase ["site", "link"]

/-- The path of the document. -/
def linkedPage : Path := "/site/link/home.json"

/-- Settings by which the link is where the hand-off file belongs. -/
def linkSettings : Settings :=
  { Settings.default "/site/tool" with handOffFile := .str "/site/link" }

theorem root_linkSettings : linkSettings.projectRoot = "/site" := by cbv

theorem path_linkSettings : linkSettings.lexiconFile = .str "/site/tool/cached_words.json" := rfl

theorem kind_linkedPage : FileKind.ofPath linkedPage = .document .json := by decide

theorem rendition_linkedPage : Path.rendition linkedPage = "/site/link/home-ar.json" := by decide

theorem order_linkedPage : order [linkedPage] = [linkedPage] := by cbv

theorem passable_link : Passable "/site/link" := by
  have found : linkSite.locate .target "/site/link" =
      .ok (.there ["site", "pages"] .directory) := by cbv
  exact (Disk.locate_eq_ok_iff.1 found).1.1

theorem read_linkSite {tool : Path} (known : tool = [] ∨ tool = "/site/tool") :
    Project.read linkSite "/site" tool linkedPage = .ok kiwiText := by
  have included : Project.isExcluded linkSite "/site" tool Project.excludedNames linkedPage =
      .ok false := by
    rcases known with rfl | rfl <;> cbv
  exact Project.read_of_readText (by simp [kind_linkedPage]) included (by cbv)

theorem read_brokenSite : Project.read brokenSite "/site" "/site/tool" linkedPage =
    .error (.access (.refused .notFound linkedPage)) := by
  have included : Project.isExcluded brokenSite "/site" "/site/tool" Project.excludedNames
      linkedPage = .ok false := by cbv
  have text : brokenSite.readText linkedPage = .error (.refused .notFound linkedPage) := by cbv
  rw [Project.read, Project.refusal?, kind_linkedPage, included, text]
  rfl

theorem opens_linkSite : Project.Opens "/site" "/site/link/home-ar.json" linkSite linkSite
    ["site", "pages", "home-ar.json"] := by
  have inside : Project.isWithin linkSite "/site" "/site/link/home-ar.json" = .ok true := by cbv
  have found : linkSite.locate .creation "/site/link/home-ar.json" =
      .ok (.free ["site", "pages", "home-ar.json"]) := by cbv
  exact Project.opens_of_isDirectory inside (by cbv) ⟨_, found, trivial, rfl⟩

theorem load_linkSite : Store.load linkSite "/site/tool/cached_words.json" = ([], []) := by cbv

theorem survey_linkSite : Project.survey linkSite "/site"
    (Store.lexicon linkSite "/site/tool/cached_words.json").1 [linkedPage] ⟨[], []⟩ =
      (.ok (), ⟨["Kiwi"], []⟩) :=
  survey_kiwi (lookup?_kiwi load_linkSite) kind_linkedPage (read_linkSite (.inl rfl))

theorem directory_link : linkSite.isDirectory (Store.directoryOf "/site/link") = true := by cbv

/-- The hand-off file cannot be written where the link leads, and the link is removed for it. -/
theorem leftBehind_linkSite (words : Missing.Words) :
    leftBehind words "/site/link" linkSite = brokenSite := by
  have pages : linkSite.locate .creation "/site/link" =
      .ok (.there ["site", "pages"] .directory) := by cbv
  have link : linkSite.locate .removal "/site/link" =
      .ok (.there ["site", "link"] (.link "pages")) := by cbv
  have saved : (Store.saveHandOff words "/site/link" linkSite).2 = linkSite := by
    refine (Store.write_cases directory_link _).resolve_right ?_
    rintro ⟨l, bytes, ⟨spot, found, writable, -⟩, -⟩
    rw [pages] at found
    cases found
    exact writable
  rw [leftBehind, saved, Store.deleteHandOff, Disk.remove, link]
  rfl

/-- The run that has asked in vain cannot read the document any more. -/
theorem run_linkSite_asking : ∃ report,
    (run linkSettings none offline [linkedPage] ⟨linkSite, [], ()⟩).1 = .ok report ∧
      report.outcomes.map Outcome.verdict = [.failed] := by
  obtain ⟨log, prepared⟩ : ∃ log, prepare linkSettings offline [linkedPage] ⟨linkSite, [], ()⟩ =
      supply linkSettings offline (Store.lexicon linkSite "/site/tool/cached_words.json").1
        ["Kiwi"] ⟨linkSite, log, ()⟩ := by
    rw [prepare_eq path_linkSettings, root_linkSettings, survey_linkSite]
    exact ⟨_, rfl⟩
  obtain ⟨after, completed, left⟩ : ∃ after, complete linkSettings offline
      (Store.lexicon linkSite "/site/tool/cached_words.json").1 ["Kiwi"] ⟨linkSite, log, ()⟩ =
        (.ok _, after) ∧ after.disk = leftBehind ["Kiwi"] "/site/link" linkSite :=
    complete_silent silent_offline rfl passable_link _ _ _
  have broken : after.disk = brokenSite := left.trans (leftBehind_linkSite _)
  have unreadable : Project.read (bench [linkedPage] after).disk linkSettings.projectRoot
      linkSettings.toolRoot linkedPage = .error (.access (.refused .notFound linkedPage)) := by
    rw [root_linkSettings, bench, broken]
    exact read_brokenSite
  have rendered : outcomes linkSettings none
      ⟨(Store.lexicon linkSite "/site/tool/cached_words.json").1, []⟩ [linkedPage]
        (bench [linkedPage] after) = _ :=
    outcomes_singleton (outcome_of_unreadable unreadable)
  rw [← order_linkedPage] at rendered
  rw [run_eq, bind_of_ok (prepared.trans completed)]
  rw [afterwards_eq_ok_iff.2 ⟨_, _, rendered, rfl, rfl⟩]
  exact ⟨_, rfl, rfl⟩

/-- The run that does not ask leaves it unchanged. -/
theorem run_linkSite_alone : ∃ report,
    (run linkSettings.alone none offline [linkedPage] ⟨linkSite, [], ()⟩).1 = .ok report ∧
      report.outcomes.map Outcome.verdict = [.rendered .unchanged] := by
  have passes : ∀ p ∈ [linkedPage], Project.Searchable linkSite linkSettings.projectRoot p := by
    rw [root_linkSettings]
    exact (Project.survey_returns_iff _ _ _ _ _).1 ⟨_, _, survey_linkSite⟩
  have found : Project.read linkSite linkSettings.projectRoot linkSettings.toolRoot linkedPage =
      .ok kiwiText := by
    rw [root_linkSettings]
    exact read_linkSite (.inr rfl)
  have opens : Project.Opens linkSettings.projectRoot (Path.rendition linkedPage) linkSite
      linkSite ["site", "pages", "home-ar.json"] := by
    rw [root_linkSettings, rendition_linkedPage]
    exact opens_linkSite
  obtain ⟨bytes, encoded⟩ :
      ∃ bytes, Utf8.encode (Json.write (.obj [("a", .str "Kiwi")])) = .ok bytes :=
    ⟨Utf8.encodeLoose "\x7b\n  \"a\": \"Kiwi\"\n\x7d", by cbv⟩
  have rendered : ∀ log, outcome linkSettings none
      ⟨(Store.lexicon linkSite "/site/tool/cached_words.json").1, []⟩ linkedPage
        ⟨linkSite, [], log⟩ = _ := fun log =>
    outcome_of_opens (b := ⟨linkSite, [], log⟩) found
      (draft_kiwi (lookup?_kiwi load_linkSite) kind_linkedPage log) rfl opens encoded
  obtain ⟨report, after, given, outcomes⟩ := runs_alone path_linkSettings offline
    ⟨linkSite, [], ()⟩ passes fun log => by
      rw [order_linkedPage]
      exact ⟨_, outcomes_singleton (rendered log)⟩
  refine ⟨report, by rw [given], ?_⟩
  rw [outcomes]
  rfl

/-- That the hand-off file names no other file is not enough: here it is a link on the way to
    the document.  Once it was removed the document cannot be read, and the run that has asked
    in vain fails where the run that does not ask leaves the document unchanged. -/
theorem run_not_silent_link :
    Silent offline ∧ linkSettings.handOffFile = .str "/site/link" ∧ Passable "/site/link" ∧
    linkSite.isDirectory (Store.directoryOf "/site/link") = true ∧
    (∀ q ∈ [linkedPage, Path.rendition linkedPage, "/site/tool/cached_words.json"],
      ¬ NameTheSame linkSite "/site/link" q) ∧
    ∃ asked alone,
      (run linkSettings none offline [linkedPage] ⟨linkSite, [], ()⟩).1 = .ok asked ∧
      (run linkSettings.alone none offline [linkedPage] ⟨linkSite, [], ()⟩).1 = .ok alone ∧
      asked.outcomes.map Outcome.verdict = [.failed] ∧
      alone.outcomes.map Outcome.verdict = [.rendered .unchanged] := by
  have pages : linkSite.locate .target "/site/link" =
      .ok (.there [Text.ofString "site", "pages"] .directory) := by cbv
  have source : linkSite.locate .target linkedPage = .ok (.there
      [Text.ofString "site", "pages", "home.json"] (.file (Utf8.encodeLoose kiwiText))) := by cbv
  have output : linkSite.locate .target (Path.rendition linkedPage) =
      .ok (.free [Text.ofString "site", "pages", "home-ar.json"]) := by
    rw [rendition_linkedPage]
    cbv
  have stored : linkSite.locate .target "/site/tool/cached_words.json" =
      .ok (.free [Text.ofString "site", "tool", "cached_words.json"]) := by cbv
  have elsewhere : ∀ q ∈ [linkedPage, Path.rendition linkedPage, "/site/tool/cached_words.json"],
      ¬ NameTheSame linkSite "/site/link" q := by
    simp only [List.forall_mem_cons, NameTheSame, pages, source, output, stored]
    refine ⟨?_, ?_, ?_, List.forall_mem_nil _⟩ <;>
    · rintro ⟨one, other, here, there, same⟩
      cases here
      cases there
      revert same
      decide
  obtain ⟨asked, asking, failed⟩ := run_linkSite_asking
  obtain ⟨alone, quiet, unchanged⟩ := run_linkSite_alone
  exact ⟨silent_offline, rfl, passable_link, directory_link, elsewhere, asked, alone, asking,
    quiet, failed, unchanged⟩

end Arabize.Batch
