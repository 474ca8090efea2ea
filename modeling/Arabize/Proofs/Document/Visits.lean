import Arabize.Proofs.Document.SharedMemory
import Arabize.Proofs.Json.Leaves
import Arabize.Proofs.Script.ElementText
import Arabize.Proofs.Script.Texts
import Arabize.Script.Grammar.Reading

/-! # The texts that a document is searched for and translated by

The search for missing words leads its visitor through a document by the passes that the
translation leads its own through.  Both see the same texts in the first pass.  A later pass
runs over what the first one has left: the search leaves the document as it is, while the
translation has already changed it, and has marked the root tag of a page before.  So what
they see is the same only as far as the changes bring no text and take none away
(`visits_compared`).
-/

namespace Arabize

open Markup (markRoot markupSpans spanTexts attributeTexts readableAttributes)
open Phrase (Answers Memory answer translateCounting)
open Script (editProgram Parser)

variable {σ : Type} {good : σ → Prop} {visit : Text → StateM σ Text} {spell : Text → Text}
  {d : Lexicon}

/-! ## Texts of a document -/

/-- The texts that the first pass over a document visits. -/
def firstTexts [Script.Parser] : Format → Text → List Text
  | .json, content =>
    match Json.read content with
    | .ok j => j.leaves
    | .error _ => []
  | .html, content => spanTexts markupSpans content
  | .program dialect, content => Script.literalTexts (Parser.parse dialect) content

/-- The texts that are visited later, in the document that the answers have left. -/
def laterTexts [Script.Parser] (spell : Text → Text) : Format → Text → List Text
  | .json, _ => []
  | .html, content =>
    attributeTexts spell readableAttributes
      ((Markup.cut markupSpans content).flatMap (Markup.respell spell content.lower))
  | .program dialect, content => Script.elementTexts spell (Parser.parse dialect) content

def textsUnder [Script.Parser] (spell : Text → Text) (format : Format) (content : Text) :
    List Text :=
  firstTexts format content ++ laterTexts spell format content

/-! ## Visits -/

/-- The texts that the passes over a document hand to a visitor, in order. -/
def visitsOf [Script.Parser] (visit : Text → StateM σ Text) (s : σ) (marked : Bool) :
    Format → Text → List Text
  | .json, content =>
    match Json.read content with
    | .ok j => (j.mapLeaves (noting visit) (s, [])).2.2
    | .error _ => []
  | .html, content => (Markup.editPage (noting visit) marked content (s, [])).2.2
  | .program dialect, content =>
    (editProgram (Parser.parse dialect) (noting visit) content (s, [])).2.2

/-- The texts that a translation under an empty memory asks for. -/
def translationVisits [Script.Parser] (d : Lexicon) (format : Format) (content : Text) :
    List Text :=
  visitsOf (translateCounting d) ⟨[], 0⟩ true format content

/-- The texts that a search for missing words looks at. -/
def searchVisits [Script.Parser] (d : Lexicon) (format : Format) (content : Text) : List Text :=
  visitsOf (Missing.visit d) [] false format content

theorem visitsOf_json [Script.Parser] (visit : Text → StateM σ Text) (spell : Text → Text) (s : σ)
    (marked : Bool)
    (content : Text) : visitsOf visit s marked .json content = textsUnder spell .json content := by
  simp only [visitsOf, textsUnder, firstTexts, laterTexts, List.append_nil]
  cases Json.read content with
  | error e => rfl
  | ok j =>
    dsimp only
    rw [Json.mapLeaves_notes visit j s [], List.nil_append]

theorem visitsOf_html [Script.Parser] (answers : Answers good visit spell) {s : σ} (start : good s)
    (marked : Bool) (content : Text) :
    visitsOf visit s marked .html content =
      textsUnder spell .html (if marked then markRoot content else content) := by
  rw [visitsOf, Markup.editPage_notes answers marked content start [], List.nil_append]
  rfl

theorem visitsOf_program [Script.Parser] (answers : Answers good visit spell) {s t : σ}
    (start : good s)
    (marked : Bool) {dialect : Script.Grammar.Dialect} {content : Text} {outcome : Script.Outcome}
    (succeeds : editProgram (Parser.parse dialect) visit content s = (.ok outcome, t)) :
    visitsOf visit s marked (.program dialect) content =
      textsUnder spell (.program dialect) content := by
  have notes := Script.editProgram_notes answers start succeeds []
  simp only [ExceptT.run] at notes
  rw [visitsOf, notes, List.nil_append]
  rfl

/-! ## Searches -/

theorem searchJson_words [Script.Parser] {content : Text} {s t : Missing.Search} {found : Bool}
    (searched : Missing.searchJson d content s = (.ok found, t)) :
    t.words = replay (Missing.visit d) s.words
      (visitsOf (Missing.visit d) s.words false .json content) := by
  simp only [Missing.searchJson, visitsOf] at searched ⊢
  cases read : Json.read content with
  | error e =>
    rw [read] at searched
    cases e <;> cases searched
    rfl
  | ok j =>
    rw [read] at searched
    cases searched
    exact replay_of_lockstep (Json.mapLeaves_lockstep (noting_lockstep _ _) j)

theorem searchHtml_words [Script.Parser] {content : Text} {s t : Missing.Search} {found : Bool}
    (searched : Missing.searchHtml d content s = (.ok found, t)) :
    t.words = replay (Missing.visit d) s.words
      (visitsOf (Missing.visit d) s.words false .html content) := by
  have along := Markup.editPage_lockstep (noting_lockstep (Missing.visit d) s.words) false content
  cases searched
  rw [visitsOf, ← replay_of_lockstep along]

/-- What is known of a search of a program that does not fail. -/
theorem searchScript_eq_ok [Script.Parser] {dialect : Script.Grammar.Dialect} {content : Text}
    {s t : Missing.Search} {found : Bool}
    (searched : Missing.searchScript d dialect content s = (.ok found, t)) :
    ∃ outcome, editProgram (Parser.parse dialect) (Missing.visit d) content s.words =
      (.ok outcome, t.words) := by
  unfold Missing.searchScript at searched
  rcases run : editProgram (Parser.parse dialect) (Missing.visit d) content s.words with
    ⟨e | outcome, words⟩
  · rw [run] at searched
    cases searched
  · rw [run] at searched
    cases outcome <;> cases searched <;> exact ⟨_, rfl⟩

theorem searchScript_words [Script.Parser] {dialect : Script.Grammar.Dialect} {content : Text}
    {s t : Missing.Search} {found : Bool}
    (searched : Missing.searchScript d dialect content s = (.ok found, t)) :
    t.words = replay (Missing.visit d) s.words
      (visitsOf (Missing.visit d) s.words false (.program dialect) content) := by
  obtain ⟨outcome, run⟩ := searchScript_eq_ok searched
  have along := Script.editProgram_lockstep (noting_lockstep (Missing.visit d) s.words)
    (Parser.parse dialect) content
  simp only [ExceptT.run] at along
  rw [visitsOf, ← replay_of_lockstep along, run]

/-- A search that does not fail looks at the texts of the document as it is, and notes what is
    wanted of one after the other. -/
theorem search_visits [Script.Parser] {format : Format} {content : Text} {s t : Missing.Search}
    {found : Bool} (searched : Missing.search d format.name content s = (.ok found, t)) :
    visitsOf (Missing.visit d) s.words false format content =
        textsUnder (fun t => t) format content ∧
      t.words = replay (Missing.visit d) s.words (textsUnder (fun t => t) format content) := by
  rw [Missing.search, Missing.ofName?_name] at searched
  cases format with
  | json =>
    have seen := visitsOf_json (Missing.visit d) (fun t => t) s.words false content
    exact ⟨seen, seen ▸ searchJson_words searched⟩
  | html =>
    have seen := visitsOf_html (Missing.visit_idle d) (s := s.words) trivial false content
    rw [if_neg Bool.false_ne_true] at seen
    exact ⟨seen, seen ▸ searchHtml_words searched⟩
  | program dialect =>
    obtain ⟨outcome, run⟩ := searchScript_eq_ok searched
    have seen := visitsOf_program (Missing.visit_idle d) trivial false run
    exact ⟨seen, seen ▸ searchScript_words searched⟩

/-! ## Translations -/

/-- A document as the passes of its translation find it: the root tag of a page is marked. -/
def prepared : Format → Text → Text
  | .html, content => markRoot content
  | _, content => content

/-- What is known of a translation of a program that does not fail. -/
theorem translateScript_eq_ok [Script.Parser] {dialect : Script.Grammar.Dialect} {content : Text}
    {run after : Run}
    {r : Rendition} (translated : translateScript d dialect content run = (.ok r, after)) :
    ∃ outcome changes,
      editProgram (Parser.parse dialect) (translateCounting d) content ⟨run.memory, 0⟩ =
        (.ok outcome, ⟨after.memory, changes⟩) ∧
      r = outcome.rendition content changes := by
  unfold translateScript Script.translateProgram at translated
  rcases edited :
      editProgram (Parser.parse dialect) (translateCounting d) content ⟨run.memory, 0⟩ with
    ⟨e | outcome, p⟩
  · rw [edited] at translated
    cases translated
  · rw [edited] at translated
    cases translated
    exact ⟨outcome, p.changes, rfl, rfl⟩

theorem translateData_memory [Script.Parser] {content : Text} {run after : Run} {r : Rendition}
    (translated : translateData d content run = (.ok r, after)) :
    after.memory = (replay (translateCounting d) ⟨run.memory, 0⟩
      (visitsOf (translateCounting d) ⟨run.memory, 0⟩ true .json content)).memory := by
  simp only [translateData, visitsOf] at translated ⊢
  cases read : Json.read content with
  | error e =>
    rw [read] at translated
    cases e <;> cases translated
    rfl
  | ok j =>
    rcases mapped : j.mapLeaves (translateCounting d) ⟨run.memory, 0⟩ with ⟨k, p⟩
    simp only [read, mapped] at translated
    cases translated
    dsimp only
    rw [← replay_of_lockstep (Json.mapLeaves_lockstep (noting_lockstep _ _) j), mapped]

theorem translateMarkup_memory [Script.Parser] {content : Text} {run after : Run} {r : Rendition}
    (translated : translateMarkup d content run = (.ok r, after)) :
    after.memory = (replay (translateCounting d) ⟨run.memory, 0⟩
      (visitsOf (translateCounting d) ⟨run.memory, 0⟩ true .html content)).memory := by
  have along := Markup.editPage_lockstep
    (noting_lockstep (translateCounting d) ⟨run.memory, 0⟩) true content
  unfold translateMarkup Markup.translatePage at translated
  rcases edited : Markup.editPage (translateCounting d) true content ⟨run.memory, 0⟩ with ⟨t, p⟩
  rw [edited] at translated
  cases translated
  rw [visitsOf, ← replay_of_lockstep along, edited]

theorem translateScript_memory [Script.Parser] {dialect : Script.Grammar.Dialect} {content : Text}
    {run after : Run} {r : Rendition}
    (translated : translateScript d dialect content run = (.ok r, after)) :
    after.memory = (replay (translateCounting d) ⟨run.memory, 0⟩
      (visitsOf (translateCounting d) ⟨run.memory, 0⟩ true (.program dialect) content)).memory := by
  obtain ⟨outcome, changes, edited, _⟩ := translateScript_eq_ok translated
  have along := Script.editProgram_lockstep
    (noting_lockstep (translateCounting d) ⟨run.memory, 0⟩) (Parser.parse dialect) content
  simp only [ExceptT.run] at along
  rw [visitsOf, ← replay_of_lockstep along, edited]

/-- A translation that does not fail asks for the texts of the document as the answers change it,
    and remembers what it asked for. -/
theorem translation_visits [Script.Parser] {format : Format} {content : Text} {run after : Run}
    {r : Rendition} (sound : Phrase.Sound d run.memory)
    (translated : translateDocument d format content run = (.ok r, after)) :
    visitsOf (translateCounting d) ⟨run.memory, 0⟩ true format content =
        textsUnder (answer d) format (prepared format content) ∧
      after.memory = (replay (translateCounting d) ⟨run.memory, 0⟩
        (textsUnder (answer d) format (prepared format content))).memory := by
  have answers := Phrase.translateCounting_answers d
  cases format with
  | json =>
    have seen := visitsOf_json (translateCounting d) (answer d) ⟨run.memory, 0⟩ true content
    exact ⟨seen, seen ▸ translateData_memory translated⟩
  | html =>
    have seen := visitsOf_html answers (s := ⟨run.memory, 0⟩) sound true content
    rw [if_pos rfl] at seen
    exact ⟨seen, seen ▸ translateMarkup_memory translated⟩
  | program dialect =>
    obtain ⟨outcome, changes, edited, _⟩ := translateScript_eq_ok translated
    have seen := visitsOf_program answers (s := ⟨run.memory, 0⟩) sound true edited
    exact ⟨seen, seen ▸ translateScript_memory translated⟩

/-! ## Both -/

theorem searchScript_accepts [Script.Parser] {dialect : Script.Grammar.Dialect} {content : Text}
    (readable : Script.Readable (Parser.parse dialect) content) (s : Missing.Search) :
    ∃ t, Missing.searchScript d dialect content s = (.ok true, t) := by
  have encoded := Utf8.encode_of_encodable readable.encodable
  obtain ⟨cs, listed⟩ := readable.listed
  obtain ⟨words, literals⟩ := Script.editLiterals_idle (Missing.visit_idle d) encoded
    (Parser.parse dialect content) s.words
  rw [listed] at literals
  unfold Missing.searchScript
  rw [Script.editProgram_eq encoded readable.parses literals]
  exact ⟨_, rfl⟩

/-- What a translation can read, a search can read. -/
theorem search_accepts [Script.Parser] {format : Format} {content : Text} {run after : Run}
    {r : Rendition}
    (translated : translateDocument d format content run = (.ok r, after)) (accepted : r.ok = true)
    (s : Missing.Search) : ∃ t, Missing.search d format.name content s = (.ok true, t) := by
  rw [Missing.search, Missing.ofName?_name]
  cases format with
  | json =>
    simp only [translateDocument, translateData] at translated
    simp only [Missing.searchJson]
    cases read : Json.read content with
    | error e =>
      rw [read] at translated
      cases e <;> cases translated
      cases accepted
    | ok j => exact ⟨_, rfl⟩
  | html => exact ⟨_, rfl⟩
  | program dialect =>
    obtain ⟨outcome, changes, edited, rfl⟩ := translateScript_eq_ok translated
    cases outcome with
    | error message => cases accepted
    | ok after => exact searchScript_accepts (Script.readable_of_edited edited) s

/-- Where nothing that is visited changes, every visitor sees what stands in the document. -/
theorem textsUnder_of_kept [Script.Parser] {format : Format} {content : Text}
    (readable : ∀ dialect, format = .program dialect →
      Script.Readable (Parser.parse dialect) content)
    (kept : ∀ t ∈ textsUnder (fun t => t) format content, spell t = t) :
    textsUnder spell format content = textsUnder (fun t => t) format content := by
  cases format with
  | json => rfl
  | html =>
    have standing : textsUnder (fun t => t) .html content = Markup.textsIn content :=
      Markup.pageTexts_of_kept fun _ _ => rfl
    rw [standing] at kept ⊢
    exact Markup.pageTexts_of_kept kept
  | program dialect =>
    have reads := readable dialect rfl
    rw [textsUnder, List.forall_mem_append] at kept
    rw [textsUnder, textsUnder, laterTexts, laterTexts,
      Script.elementTexts_of_kept reads kept.1, Script.elementTexts_of_kept reads fun _ _ => rfl]

/-- The texts that a translation asks for beside those that a search looks at, exactly.  They are
    the same in the first pass; later ones stand in the document that the translation has changed,
    and in the one that the search has not.  So both see the same texts if and only if the changes
    neither bring nor take away a text that is not in the first pass, and in the same order if
    nothing that is visited changes. -/
theorem visits_compared [Script.Parser] {format : Format} {content : Text} {r : Rendition}
    {after : Run} (translated : translateDocument d format content ⟨[], []⟩ = (.ok r, after))
    (accepted : r.ok = true) :
    translationVisits d format content =
      firstTexts format (prepared format content) ++
        laterTexts (answer d) format (prepared format content) ∧
    after.memory =
      (replay (translateCounting d) ⟨[], 0⟩ (translationVisits d format content)).memory ∧
    (∃ found, Missing.search d format.name content ⟨[], []⟩ = (.ok true, found) ∧
      found.words = replay (Missing.visit d) [] (searchVisits d format content)) ∧
    searchVisits d format content =
      firstTexts format content ++ laterTexts (fun t => t) format content ∧
    (prepared format content = content →
      ((∀ t, t ∈ translationVisits d format content ↔ t ∈ searchVisits d format content) ↔
        ∀ t, t ∉ firstTexts format content →
          (t ∈ laterTexts (answer d) format content ↔
            t ∈ laterTexts (fun t => t) format content)) ∧
      ((∀ t ∈ searchVisits d format content, answer d t = t) →
        translationVisits d format content = searchVisits d format content)) := by
  obtain ⟨asked, remembered⟩ := translation_visits (Phrase.sound_nil d) translated
  obtain ⟨found, searched⟩ := search_accepts translated accepted ⟨[], []⟩
  obtain ⟨looked, noted⟩ := search_visits searched
  have asks : translationVisits d format content =
      textsUnder (answer d) format (prepared format content) := asked
  have looks : searchVisits d format content = textsUnder (fun t => t) format content := looked
  refine ⟨asks, asks ▸ remembered, ⟨found, searched, looks ▸ noted⟩, looks, fun same => ?_⟩
  rw [asks, looks, same]
  constructor
  · -- Both begin with the texts of the first pass, and can differ only in what comes later.
    simp only [textsUnder, List.mem_append]
    exact ⟨fun both t other => by simpa only [other, false_or] using both t,
      fun later t => Decidable.or_congr_right' (later t)⟩
  · refine textsUnder_of_kept ?_
    rintro dialect rfl
    obtain ⟨outcome, changes, edited, rfl⟩ := translateScript_eq_ok translated
    cases outcome with
    | error message => cases accepted
    | ok after => exact Script.readable_of_edited edited

section

open scoped Installed

/-- An attribute that is spelled out in a text: the translation puts another text in its place,
    and the search looks at its value. -/
theorem visits_compared_spelled :
    let text : Text := "Write alt=\"Logo\" here"
    let d : Lexicon := [(text, "X")]
    let content : Text := "<p>" ++ text ++ "</p>"
    ∃ r after, translateDocument d .html content ⟨[], []⟩ = (.ok r, after) ∧ r.ok = true ∧
      translationVisits d .html content = ([text] : List Text) ∧
      searchVisits d .html content = ([text, "Logo"] : List Text) ∧
      translationVisits d .html content =
        firstTexts .html (prepared .html content) ++
          laterTexts (answer d) .html (prepared .html content) ∧
      after.memory =
        (replay (translateCounting d) ⟨[], 0⟩ (translationVisits d .html content)).memory ∧
      (∃ found, Missing.search d Format.html.name content ⟨[], []⟩ = (.ok true, found) ∧
        found.words = replay (Missing.visit d) [] (searchVisits d .html content)) ∧
      searchVisits d .html content =
        firstTexts .html content ++ laterTexts (fun t => t) .html content ∧
      (prepared .html content = content →
        ((∀ t, t ∈ translationVisits d .html content ↔ t ∈ searchVisits d .html content) ↔
          ∀ t, t ∉ firstTexts .html content →
            (t ∈ laterTexts (answer d) .html content ↔
              t ∈ laterTexts (fun t => t) .html content)) ∧
        ((∀ t ∈ searchVisits d .html content, answer d t = t) →
          translationVisits d .html content = searchVisits d .html content)) := by
  intro text d content
  refine ⟨_, _, rfl, ?_, ?_, ?_, visits_compared rfl ?_⟩
  all_goals decide +kernel

end

end Arabize
