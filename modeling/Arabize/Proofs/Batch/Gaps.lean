import Arabize.Proofs.Batch.Silence
import Arabize.Proofs.Batch.Stages
import Arabize.Proofs.Lexicon.Stored
import Arabize.Proofs.Script.Grammar.Alignment

/-! # What asking changes of a lexicon

A run that asks gets the lexicon it had, overridden by what it was answered: new words win, and
words that nobody asked for are taken as well.  So a text that was known keeps its translation
unless the answer holds it, or holds its lower-case form while only that was known.  An answer
that holds nothing but words that were asked for fills gaps and changes nothing else.
-/

namespace Arabize.Batch

variable {σ : Type} {s : Settings} {a : Assistant σ} {words : Missing.Words} {file p : Path}
  {session after : Session σ} {paths : List Path} {translations : Mapping Json} {t v : Text}

/-! ## What is answered -/

instance (s : Settings) (a : Assistant σ) (words : Missing.Words) : Decidable (Asks s a words) :=
  inferInstanceAs (Decidable (_ ∧ _))

/-- What an assistant answers by way of a hand-off file; nothing if that fails. -/
def answerAt (a : Assistant σ) (words : Missing.Words) (p : Path) (session : Session σ) :
    Mapping Json :=
  match (handOver a words p session).1 with
  | .ok translations => translations
  | .error _ => []

/-- The translations that a run is answered with, if it asks. -/
def gained (s : Settings) (a : Assistant σ) (words : Missing.Words) (session : Session σ) :
    Lexicon :=
  match s.handOffFile with
  | .str p => if Asks s a words then Json.textFields (answerAt a words p session) else []
  | _ => []

theorem gained_of_not_asks (silent : ¬ Asks s a words) : gained s a words session = [] := by
  unfold gained
  split
  · rw [if_neg silent]
  · rfl

/-- What was reported before makes no difference to the answer. -/
theorem answerAt_log (log : Log) :
    answerAt a words p { session with log } = answerAt a words p session := by
  unfold answerAt handOver
  rcases Store.saveHandOff words p session.disk with ⟨e | _, saved⟩ <;> rfl

theorem fetchAt_eq_ok (given : fetchAt a words p session = (.ok translations, after)) :
    translations = answerAt a words p session := by
  obtain ⟨answer, asked, answered, rest⟩ := bind_eq_ok.1 given
  have said : (handOver a words p session).1 = answer := by
    cases answered
    rfl
  rw [answerAt, said]
  cases answer with
  | error why =>
    obtain ⟨_, _, _, rest⟩ := bind_eq_ok.1 rest
    obtain ⟨_, _, _, rest⟩ := bind_eq_ok.1 rest
    cases rest
    rfl
  | ok answer =>
    obtain ⟨_, _, _, rest⟩ := bind_eq_ok.1 rest
    cases rest
    rfl

/-! ## What is stored -/

/-- Words that were kept are stored over those from before, or nothing is stored at all. -/
theorem find?_load_of_keep (textual : Json.Textual translations)
    (kept : keep file translations session = (.ok (), after))
    (absent : t ∉ Mapping.keys (Json.textFields translations)) :
    (Store.load after.disk file).1.find? t = (Store.load session.disk file).1.find? t := by
  unfold keep Store.append at kept
  dsimp only at kept
  rcases written : Store.write file ((Json.textValues (Store.load session.disk file).1).update
    translations) session.disk with ⟨e | _, disk⟩ <;> rw [written] at kept <;> dsimp only at kept
  · cases refusal : e.isRefusal with
    | true =>
      rw [refusal] at kept
      cases kept
      obtain ⟨before, now⟩ := Store.load_of_refused written refusal
      rw [before, now]
    | false =>
      rw [refusal] at kept
      cases kept
  · cases kept
    rw [Json.textual_iff.1 textual, ← Json.textValues_update] at written
    have stored := Store.load_of_written
      (Mapping.nodup_keys_update (Store.nodup_keys_load session.disk file) _) written (.refl disk)
      fun _ _ => rfl
    rw [stored]
    exact Mapping.find?_update_of_not_mem absent

/-- The stored words are the same once a hand-off file has come and gone. -/
def Spares (s : Settings) (words : Missing.Words) (disk : Disk) (file : Path) : Prop :=
  ∀ h, s.handOffFile = .str h →
    (Store.load (leftBehind words h disk) file).1 = (Store.load disk file).1

theorem spares_of_avoids {disk : Disk}
    (directory : ∀ h, s.handOffFile = .str h → disk.isDirectory (Store.directoryOf h) = true)
    (avoids : ∀ h, s.handOffFile = .str h → Disk.Avoids (Disk.Touches disk h) disk file) :
    Spares s words disk file := by
  intro h handOff
  have beside := Store.deleteHandOff_beside (directory h handOff) words
  have same : (leftBehind words h disk).readText file = disk.readText file :=
    beside.readText (avoids h handOff)
  rw [Store.load, Store.load, Store.readFields, Store.readFields, same]

/-! ## The vocabulary that is prepared -/

theorem complete_overrides [Lexicon.Bundle] (plain : Plain a) (path : s.lexiconFile = .str file)
    (asks : Asks s a words) (spares : Spares s words session.disk file) {log : Log}
    {prepared : Preparation} (given : complete s a (Store.lexicon session.disk file).1 words
      { session with log } = (.ok prepared, after)) (t : Text) :
    prepared.vocabulary.lexicon.find? t =
      ((Store.lexicon session.disk file).1.update (gained s a words session)).find? t := by
  obtain ⟨log, translations, fetched, fetches, completed⟩ := complete_eq_ok given
  have textual := fetch_textual plain fetches
  cases handOff : s.handOffFile with
  | str h =>
    rw [handOff, fetch] at fetches
    have answer := fetchAt_eq_ok fetches
    have left := fetchAt_disk a { session with log } words h
    rw [fetches] at left
    have gains : gained s a words session = Json.textFields translations := by
      rw [answer, answerAt_log, answerAt_log]
      simp only [gained, handOff, asks, if_true]
    rw [gains]
    -- Without an answer the lexicon is what it was; an answer is stored, and loaded again.
    rcases completed with ⟨rfl, same⟩ | ⟨named, kept, again, keeps, same⟩
    · rw [same]
      rfl
    · rw [path] at again
      cases again
      rw [same]
      refine Store.find?_vocabulary textual (fun t absent => ?_) t
      rw [find?_load_of_keep textual keeps absent, show fetched.disk = _ from left,
        spares h handOff]
  | _ =>
    rw [handOff] at fetches
    cases fetches

/-- A prepared vocabulary is the lexicon from before, overridden by what was answered. -/
theorem prepare_overrides [Script.Parser] [Lexicon.Bundle] (plain : Plain a)
    (path : s.lexiconFile = .str file)
    (spares : Spares s (missing s session.disk file paths) session.disk file)
    {prepared : Preparation} (given : prepare s a paths session = (.ok prepared, after))
    (t : Text) :
    prepared.vocabulary.lexicon.find? t = ((Store.lexicon session.disk file).1.update
      (gained s a (missing s session.disk file paths) session)).find? t := by
  unfold missing at spares ⊢
  rw [prepare_eq path] at given
  rcases surveyed : Project.survey session.disk s.projectRoot (Store.lexicon session.disk file).1
    paths ⟨[], []⟩ with ⟨e | _, seen⟩ <;> rw [surveyed] at given spares
  · cases given
  · dsimp only at given spares ⊢
    unfold supply at given
    split at given
    next none =>
      rw [gained_of_not_asks fun asks => asks.1 none]
      cases given
      rfl
    next some =>
      split at given
      next asks => exact complete_overrides plain path ⟨some, asks⟩ spares given t
      next silent =>
        rw [gained_of_not_asks fun asks => silent asks.2]
        cases given
        rfl

/-! ## What stays known -/

/-- An answer leaves a text alone if it does not hold it, nor its lower-case form unless the text
    was known by its exact spelling. -/
def LeavesAlone (before answer : Lexicon) (t : Text) : Prop :=
  t ∉ Mapping.keys answer ∧ (Lexicon.entry? before t = none → t.lower ∉ Mapping.keys answer)

theorem lookup?_update_of_leavesAlone {before answer : Lexicon}
    (alone : LeavesAlone before answer t) (known : before.lookup? t = some v) :
    Lexicon.lookup? (before.update answer) t = some v := by
  have same : ∀ key ∉ Mapping.keys answer,
      Lexicon.entry? (before.update answer) key = before.entry? key := by
    intro key absent
    rw [Lexicon.entry?, Mapping.find?_update_of_not_mem absent, Lexicon.entry?]
  unfold Lexicon.lookup? at known ⊢
  rw [same t alone.1]
  cases exactly : before.entry? t with
  | some found =>
    rw [exactly] at known
    exact known
  | none =>
    rw [exactly] at known
    rw [same t.lower (alone.2 exactly)]
    exact known

/-- What is missing is not known. -/
theorem lookup?_of_missing [Script.Parser] [Lexicon.Bundle] {disk : Disk} {w : Text}
    (passes : ∀ p ∈ paths, Project.Searchable disk s.projectRoot p)
    (member : w ∈ missing s disk file paths) : (Store.lexicon disk file).1.lookup? w = none := by
  obtain ⟨_, seen, surveyed⟩ := (Project.survey_returns_iff disk s.projectRoot
    (Store.lexicon disk file).1 paths ⟨[], []⟩).2 passes
  rw [missing, surveyed] at member
  have wanted := (Project.survey_wanted surveyed member).resolve_left List.not_mem_nil
  have unknown := (Missing.isWanted_iff.1 wanted).2
  rwa [Lexicon.knows, Option.isSome_eq_false_iff, Option.isNone_iff_eq_none] at unknown

/-- An answer with nothing but missing words leaves all alone that is known. -/
theorem leavesAlone_of_subset [Script.Parser] [Lexicon.Bundle] {disk : Disk} {answer : Lexicon}
    (passes : ∀ p ∈ paths, Project.Searchable disk s.projectRoot p)
    (asked : Mapping.keys answer ⊆ missing s disk file paths)
    (known : (Store.lexicon disk file).1.lookup? t = some v) :
    LeavesAlone (Store.lexicon disk file).1 answer t := by
  refine ⟨fun member => ?_, fun inexact member => ?_⟩
  · rw [lookup?_of_missing passes (asked member)] at known
    cases known
  · have unknown := lookup?_of_missing passes (asked member)
    rw [Lexicon.lookup?, Option.or_eq_none_iff] at unknown
    rw [Lexicon.lookup?, inexact, unknown.1] at known
    cases known

/-- The vocabulary that is prepared gives what the lexicon from before gives once it is overridden
    by the answer.  A text that was known keeps its translation if the answer leaves it alone, and
    so do all of them if nothing was answered but words that were asked for. -/
theorem prepare_fills_gaps [Script.Parser] [Lexicon.Bundle] (plain : Plain a)
    (path : s.lexiconFile = .str file)
    (spares : Spares s (missing s session.disk file paths) session.disk file)
    {prepared : Preparation} (given : prepare s a paths session = (.ok prepared, after)) :
    let before := (Store.lexicon session.disk file).1
    let answer := gained s a (missing s session.disk file paths) session
    prepared.vocabulary.strays = [] ∧
      (∀ t, prepared.vocabulary.lexicon.lookup? t = Lexicon.lookup? (before.update answer) t) ∧
      (∀ t v, before.lookup? t = some v → LeavesAlone before answer t →
        prepared.vocabulary.lexicon.lookup? t = some v) ∧
      (Mapping.keys answer ⊆ missing s session.disk file paths →
        ∀ t v, before.lookup? t = some v → prepared.vocabulary.lexicon.lookup? t = some v) := by
  intro before answer
  have overridden : ∀ t, prepared.vocabulary.lexicon.lookup? t =
      Lexicon.lookup? (before.update answer) t := by
    intro t
    have finds := prepare_overrides plain path spares given
    simp only [Lexicon.lookup?, Lexicon.entry?, finds]
    rfl
  have passes := searchable_of_prepare path given
  refine ⟨prepare_plain plain given, overridden, fun t v known alone => ?_,
    fun asked t v known => ?_⟩
  · rw [overridden]
    exact lookup?_update_of_leavesAlone alone known
  · rw [overridden]
    exact lookup?_update_of_leavesAlone (leavesAlone_of_subset passes asked known) known

/-! ## Answers to one question -/

open scoped Installed

/-- An assistant that knows these words, whatever it is asked for. -/
def answering (words : Lexicon) : Assistant Unit :=
  ⟨true, fun _ _ => return ⟨.ok (Json.textValues words), []⟩⟩

theorem plain_answering (words : Lexicon) : Plain (answering words) := by
  intro disk p peer translations given
  cases given
  exact Json.textual_textValues words

/-- The site while the word is asked for. -/
def askedSite : Disk := kiwiSite.put ["site", "tool", "missing_words.json"]
  (.file (Utf8.encodeLoose "\x7b\n  \"Kiwi\": \"\"\n\x7d"))

theorem saveHandOff_kiwiSite : Store.saveHandOff ["Kiwi"] "/site/tool/missing_words.json" kiwiSite =
    (.ok (), askedSite) :=
  Store.write_of_lands directory_kiwiSite ⟨_, locate_kiwiSite (.inl rfl), trivial, rfl⟩ (by cbv)

theorem deleteHandOff_askedSite : Store.deleteHandOff "/site/tool/missing_words.json" askedSite =
    (.ok (), kiwiSite) := by
  cbv

theorem gained_kiwiSite (words : Lexicon) : gained (Settings.default "/site/tool")
    (answering words) ["Kiwi"] ⟨kiwiSite, [], ()⟩ = words := by
  have handOff : (Settings.default "/site/tool").handOffFile =
      .str "/site/tool/missing_words.json" := rfl
  have asks : Asks (Settings.default "/site/tool") (answering words) ["Kiwi"] :=
    ⟨List.cons_ne_nil _ _, rfl⟩
  simp only [gained, handOff, asks, if_true, answerAt, handOver, saveHandOff_kiwiSite]
  exact Json.textFields_textValues words

theorem prepare_kiwiSite {words : Lexicon}
    (encodable : ∀ kv ∈ words, Utf8.Encodable kv.1 ∧ Utf8.Encodable kv.2) :
    Returns (prepare (Settings.default "/site/tool") (answering words) ["/site/home.json"])
      ⟨kiwiSite, [], ()⟩ := by
  have path : (Settings.default "/site/tool").lexiconFile =
      .str "/site/tool/cached_words.json" := rfl
  have handOff : (Settings.default "/site/tool").handOffFile =
      .str "/site/tool/missing_words.json" := rfl
  have passable : Disk.Passable "/site/tool/cached_words.json" := by
    have free : kiwiSite.locate .creation "/site/tool/cached_words.json" =
        .ok (.free ["site", "tool", "cached_words.json"]) := by cbv
    exact (Disk.locate_eq_ok_iff.1 free).1.1
  have passes := (Project.survey_returns_iff _ _ _ _ _).1 ⟨_, _, survey_kiwiSite⟩
  rw [prepare_returns_iff Installed.isAligned]
  -- None of the three things that keep a preparation from returning is the case.
  rintro (unnamed | ⟨member, blocks⟩ | ⟨same, _, obstructs⟩)
  · exact unnamed _ path
  · rw [root_kiwiSite] at blocks
    exact (Project.searchable_iff Installed.isAligned).1 (passes _ member) blocks
  · rw [path] at same
    cases same
    rw [missing_kiwiSite] at obstructs
    rcases obstructs with stuck | ⟨same, fetches, brought, balks⟩
    · exact stuck _ handOff (Disk.locate_eq_ok_iff.1 (locate_kiwiSite (.inl rfl))).1.1
    · rw [handOff] at same
      cases same
      obtain ⟨saved, saves, given, rfl⟩ := fetches
      rw [saveHandOff_kiwiSite] at saves
      cases saves
      cases given
      rw [deleteHandOff_askedSite,
        merged_balks_iff passable (Json.textual_textValues words)] at balks
      obtain ⟨_, kv, member, unencodable⟩ := balks
      rw [merged, load_kiwiSite] at member
      obtain ⟨word, inside, rfl⟩ := List.mem_map.1 ((Mapping.mem_update member).resolve_left
        List.not_mem_nil)
      obtain ⟨key, value⟩ := encodable word inside
      rcases unencodable with bad | ⟨t, isText, bad⟩
      · exact bad key
      · cases isText
        exact bad value

/-- The hand-off file of the site has nothing to do with its stored words. -/
theorem spares_kiwiSite : Spares (Settings.default "/site/tool") ["Kiwi"] kiwiSite
    "/site/tool/cached_words.json" := by
  refine spares_of_avoids (fun h handOff => ?_) fun h handOff => ?_
  · cases handOff
    exact directory_kiwiSite
  · cases handOff
    refine Disk.avoids_of_linkCount (by decide) fun l onWay touched => ?_
    have outside : (["site", "tool", "missing_words.json"] : Location) ∉
        Disk.visited (kiwiSite.origin "/site/tool/cached_words.json")
          (Path.components "/site/tool/cached_words.json") := by decide
    exact outside (touches_kiwiSite touched ▸ onWay)

/-- What such an assistant answers overrides the lexicon. -/
theorem overrides_kiwiSite {words : Lexicon} {prepared : Preparation} {after : Session Unit}
    (given : prepare (Settings.default "/site/tool") (answering words) ["/site/home.json"]
      ⟨kiwiSite, [], ()⟩ = (.ok prepared, after)) (t : Text) :
    prepared.vocabulary.lexicon.find? t =
      ((Store.lexicon kiwiSite "/site/tool/cached_words.json").1.update words).find? t := by
  have path : (Settings.default "/site/tool").lexiconFile =
      .str "/site/tool/cached_words.json" := rfl
  have finds := fun spares => prepare_overrides (plain_answering words) path spares given t
  rw [missing_kiwiSite, gained_kiwiSite] at finds
  exact finds spares_kiwiSite

theorem lookup?_kiwiSite :
    (Store.lexicon kiwiSite "/site/tool/cached_words.json").1.lookup? "Home" = some "الرئيسية" ∧
    (Store.lexicon kiwiSite "/site/tool/cached_words.json").1.lookup? "World" = some "العالم" := by
  have home : Text.lower "Home" = Text.ofString "home" := by cbv
  have world : Text.lower "World" = Text.ofString "world" := by cbv
  have found : (Lexicon.lastBundled? "Home").or (Lexicon.lastBundled? "home") = some "الرئيسية" ∧
      (Lexicon.lastBundled? "World").or (Lexicon.lastBundled? "world") = some "العالم" := by decide
  rw [lookup?_unstored load_kiwiSite home, lookup?_unstored load_kiwiSite world, found.1, found.2]
  exact ⟨rfl, rfl⟩

/-- The answer that holds just what was asked for. -/
def askedFor : Lexicon := [("Kiwi", "X")]

/-- An answer that holds more. -/
def unasked : Lexicon := [("Kiwi", "X"), ("Home", "Y"), ("World", "Z")]

/-- An answer that holds what was asked for and nothing else leaves all other texts as they were. -/
theorem prepare_fills_gaps_kiwi :
    Plain (answering askedFor) ∧
    (Settings.default "/site/tool").lexiconFile = .str "/site/tool/cached_words.json" ∧
    Spares (Settings.default "/site/tool") (missing (Settings.default "/site/tool") kiwiSite
      "/site/tool/cached_words.json" ["/site/home.json"]) kiwiSite "/site/tool/cached_words.json" ∧
    ∃ prepared after, prepare (Settings.default "/site/tool") (answering askedFor)
        ["/site/home.json"] ⟨kiwiSite, [], ()⟩ = (.ok prepared, after) ∧
      prepared.vocabulary.lexicon.lookup? "Home" = some "الرئيسية" ∧
      prepared.vocabulary.lexicon.lookup? "World" = some "العالم" := by
  have encodable : ∀ kv ∈ askedFor, Utf8.Encodable kv.1 ∧ Utf8.Encodable kv.2 := by
    intro kv member
    rw [List.mem_singleton.1 member]
    exact ⟨Utf8.encodable_ofString _, Utf8.encodable_ofString _⟩
  obtain ⟨prepared, after, given⟩ := prepare_kiwiSite encodable
  have path : (Settings.default "/site/tool").lexiconFile =
      .str "/site/tool/cached_words.json" := rfl
  have fills := fun spares => prepare_fills_gaps (plain_answering askedFor) path spares given
  rw [missing_kiwiSite, gained_kiwiSite] at fills
  obtain ⟨_, _, _, keeps⟩ := fills spares_kiwiSite
  have asked : Mapping.keys askedFor ⊆ [Text.ofString "Kiwi"] := by decide
  have spares := spares_kiwiSite
  rw [← missing_kiwiSite] at spares
  exact ⟨plain_answering _, path, spares, prepared, after, given,
    keeps asked _ _ lookup?_kiwiSite.1, keeps asked _ _ lookup?_kiwiSite.2⟩

theorem find?_unasked : Mapping.find? "Home" unasked = some (Text.ofString "Y") ∧
    Mapping.find? "World" unasked = some (Text.ofString "Z") ∧ (Mapping.keys unasked).Nodup := by
  decide

/-- Words that nobody asked for are taken as well: one takes the place of the translation that its
    text had, and one that of a translation that was known by the lower-case form. -/
theorem prepare_not_only_fills_gaps :
    ∃ prepared after, prepare (Settings.default "/site/tool") (answering unasked)
        ["/site/home.json"] ⟨kiwiSite, [], ()⟩ = (.ok prepared, after) ∧
      (Store.lexicon kiwiSite "/site/tool/cached_words.json").1.lookup? "Home" =
        some "الرئيسية" ∧
      (Store.lexicon kiwiSite "/site/tool/cached_words.json").1.lookup? "World" =
        some "العالم" ∧
      prepared.vocabulary.lexicon.lookup? "Home" = some "Y" ∧
      prepared.vocabulary.lexicon.lookup? "World" = some "Z" := by
  have encodable : ∀ kv ∈ unasked, Utf8.Encodable kv.1 ∧ Utf8.Encodable kv.2 := by
    intro kv member
    simp only [unasked, List.mem_cons, List.not_mem_nil, or_false] at member
    rcases member with rfl | rfl | rfl <;>
      exact ⟨Utf8.encodable_ofString _, Utf8.encodable_ofString _⟩
  obtain ⟨prepared, after, given⟩ := prepare_kiwiSite encodable
  obtain ⟨home, world, nodup⟩ := find?_unasked
  have known : ∀ {key v : Text}, Mapping.find? key unasked = some v → v ≠ [] →
      prepared.vocabulary.lexicon.lookup? key = some v := by
    intro key v member full
    have found := overrides_kiwiSite given key
    rw [Mapping.find?_update nodup, member, Option.some_or] at found
    simp [Lexicon.lookup?, Lexicon.entry?, found, full]
  exact ⟨prepared, after, given, lookup?_kiwiSite.1, lookup?_kiwiSite.2,
    known home (by decide), known world (by decide)⟩

end Arabize.Batch
