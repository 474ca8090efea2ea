import Mathlib.Data.List.Permutation
import Arabize.Proofs.Batch.Draft
import Arabize.Proofs.Project.Write
import Arabize.Script.Grammar.Reading

/-! # What an outcome says of the disk

A file that was rendered has its rendition on the disk, to the byte.  A file that failed or
was skipped has left all files as they were, with one exception: a rendition without an
encoding is noticed only after its file was opened, and then the file is empty.
-/

namespace Arabize.Batch

open Disk (Adds)
open Utf8 (Encodable)

variable {s : Settings} {mirror : Option Mirror} {words : Vocabulary} {p : Path} {b after : Bench}
  {o : Outcome}

/-- The text that the rendition of a file is to hold: its translation, or its mirror image. -/
inductive Renders [Script.Parser] (s : Settings) (mirror : Option Mirror) (words : Vocabulary)
    (p : Path) (b : Bench) : Text → Prop
  | document {format source r} : FileKind.ofPath p = .document format →
      Project.read b.disk s.projectRoot s.toolRoot p = .ok source →
      (translateBy words format source b.run).1 = .ok r → (format = .json → r.ok = true) →
      Renders s mirror words p b r.content
  | stylesheet {source f content} : FileKind.ofPath p = .stylesheet →
      Project.read b.disk s.projectRoot s.toolRoot p = .ok source →
      mirror = some f → f source = .ok content → Renders s mirror words p b content

/-- A text to be rendered is the content of a draft. -/
theorem renders_iff [Script.Parser] {content : Text} : Renders s mirror words p b content ↔
    ∃ source t, Project.read b.disk s.projectRoot s.toolRoot p = .ok source ∧
      (draft mirror words p source b.run).1 = .ok t ∧ t.content = some content := by
  constructor
  · intro renders
    cases renders with
    | @document format source r kind found given readable =>
      have notFailed : (format = .json && !r.ok) = false := by
        by_cases json : format = .json
        · simp [readable json]
        · simp [json]
      rcases run : translateBy words format source b.run with ⟨e | _, next⟩ <;> rw [run] at given
      · cases given
      · cases given
        refine ⟨source, ?_⟩
        simp only [draft, kind, draftDocument, run, notFailed, Bool.false_eq_true, if_false]
        split <;> exact ⟨_, found, rfl, rfl⟩
    | @stylesheet source f _ kind found given out =>
      refine ⟨source, ?_⟩
      simp only [draft, kind, draftStylesheet, given, out]
      exact ⟨_, found, rfl, rfl⟩
  -- Along the branches of a draft: it has a content in those of two sorts of files only.
  · rintro ⟨source, t, found, given, same⟩
    unfold draft at given
    split at given
    next format kind =>
      unfold draftDocument at given
      split at given
      · cases given
      next r next run =>
        split at given
        · cases given
          cases same
        next notFailed =>
          have readable : format = .json → r.ok = true := by simpa using notFailed
          have result : (translateBy words format source b.run).1 = .ok r := by rw [run]
          split at given <;>
          · cases given
            cases same
            exact .document kind found result readable
    next kind =>
      unfold draftStylesheet at given
      split at given
      · cases given
        cases same
      next f =>
        split at given
        · cases given
        next out result =>
          cases given
          cases same
          exact .stylesheet kind found rfl result
    · cases given

/-- What becomes of a file and of its rendition. -/
inductive Ended [Script.Parser] (s : Settings) (mirror : Option Mirror) (words : Vocabulary)
    (p : Path) (b : Bench) (o : Outcome) (disk : Disk) : Prop
  /-- There is nothing to write. -/
  | idle : (∀ content, ¬ Renders s mirror words p b content) → disk = b.disk →
      o.verdict = .failed ∨ o.verdict = .skipped → Ended s mirror words p b o disk
  /-- The rendition is no file that could be opened. -/
  | closed {content} : Renders s mirror words p b content →
      (∀ made l, ¬ Project.Opens s.projectRoot (Path.rendition p) b.disk made l) →
      Adds b.disk disk → o.verdict = .failed → Ended s mirror words p b o disk
  /-- The rendition was opened, but has no encoding. -/
  | emptied {content made l} : Renders s mirror words p b content →
      Project.Opens s.projectRoot (Path.rendition p) b.disk made l → ¬ Encodable content →
      disk = made.put l (.file []) → o.verdict = .failed → Ended s mirror words p b o disk
  | written {content made l bytes status} : Renders s mirror words p b content →
      Project.Opens s.projectRoot (Path.rendition p) b.disk made l →
      Utf8.encode content = .ok bytes → disk = made.put l (.file bytes) →
      o.output = Path.rendition p → o.verdict = .rendered status → Ended s mirror words p b o disk

/-- How a step that renders a file has ended, whatever it gave. -/
def EndsAs [Script.Parser] (s : Settings) (mirror : Option Mirror) (words : Vocabulary) (p : Path)
    (b : Bench) : Except Failure Outcome × Bench → Prop
  | (.ok o, after) => Ended s mirror words p b o after.disk
  | (.error e, after) => Ended s mirror words p b (failedOutcome p e) after.disk

theorem settle_ends [Script.Parser] {source : Text} {t : Draft} {run : Run}
    (found : Project.read b.disk s.projectRoot s.toolRoot p = .ok source)
    (drafted : draft mirror words p source b.run = (.ok t, run)) :
    EndsAs s mirror words p b (settle s p t { b with run }) := by
  have said := draft_outcome drafted
  have renders : ∀ content, Renders s mirror words p b content ↔ t.content = some content := by
    intro content
    rw [renders_iff]
    constructor
    · rintro ⟨_, _, again, given, same⟩
      rw [found] at again
      cases again
      rw [drafted] at given
      cases given
      exact same
    · exact fun same => ⟨source, t, found, by rw [drafted], same⟩
  unfold settle
  cases text : t.content with
  | none =>
    rw [text] at said
    exact .idle (fun content => by simp [renders, text]) rfl said
  | some content =>
    rw [text] at said
    obtain ⟨output, status, verdict⟩ := said
    have renders := (renders content).2 text
    -- The file is opened before the text is encoded, so a text without an encoding empties it.
    by_cases opened : ∃ made l, Project.Opens s.projectRoot (Path.rendition p) b.disk made l
    · obtain ⟨made, l, opens⟩ := opened
      simp only [Project.write_of_opens opens]
      cases encoded : Utf8.encode content with
      | ok bytes => exact .written renders opens encoded rfl output verdict
      | error e =>
        have unencodable : ¬ Encodable content := fun encodable => by
          rw [Utf8.encode_of_encodable encodable] at encoded
          cases encoded
        exact .emptied renders opens unencodable rfl rfl
    · have closed : ∀ made l, ¬ Project.Opens s.projectRoot (Path.rendition p) b.disk made l :=
        fun made l opens => opened ⟨made, l, opens⟩
      obtain ⟨e, left, failed, adds⟩ := Project.write_of_not_opens closed content
      simp only [failed]
      exact .closed renders closed adds rfl

theorem render_ends [Script.Parser] (s : Settings) (mirror : Option Mirror) (words : Vocabulary)
    (p : Path) (b : Bench) : EndsAs s mirror words p b (render s mirror words p b) := by
  rw [render_eq]
  cases found : Project.read b.disk s.projectRoot s.toolRoot p with
  | error e =>
    refine .idle (fun content renders => ?_) rfl (.inl rfl)
    obtain ⟨_, _, given, _⟩ := renders_iff.1 renders
    rw [found] at given
    cases given
  | ok source =>
    dsimp only
    rcases drafted : draft mirror words p source b.run with ⟨e | t, run⟩
    · refine .idle (fun content renders => ?_) rfl (.inl rfl)
      obtain ⟨_, _, again, given, _⟩ := renders_iff.1 renders
      rw [found] at again
      cases again
      rw [drafted] at given
      cases given
    · exact settle_ends found drafted

theorem outcome_ends [Script.Parser] (given : outcome s mirror words p b = (.ok o, after)) :
    Ended s mirror words p b o after.disk := by
  have ends := render_ends s mirror words p b
  unfold outcome at given
  rcases rendered : render s mirror words p b with ⟨e | _, next⟩ <;>
    rw [rendered] at given ends
  · dsimp only at given
    split at given <;> cases given
    exact ends
  · cases given
    exact ends

/-! ## The truth of an outcome -/

/-- All files of a disk are files of another one, with the same bytes, and it has no others. -/
def SameFiles (d c : Disk) : Prop :=
  ∀ l bytes, c.entry? l = some (.file bytes) ↔ d.entry? l = some (.file bytes)

/-- The rendition of a file has no encoding, and was opened where no empty file stood. -/
def Spills [Script.Parser] (s : Settings) (mirror : Option Mirror) (words : Vocabulary) (p : Path)
    (b : Bench) : Prop :=
  ∃ content made l, Renders s mirror words p b content ∧ ¬ Encodable content ∧
    Project.Opens s.projectRoot (Path.rendition p) b.disk made l ∧
    b.disk.entry? l ≠ some (.file [])

/-- A file that was rendered has its rendition where the outcome says, to the byte.  One that
    failed or was skipped has left every file as it was, and has made none, exactly unless its
    rendition was opened and then had no encoding.  No file but the rendition changes at all. -/
theorem outcome_truthful [Script.Parser] (given : outcome s mirror words p b = (.ok o, after)) :
    (o.verdict = .failed ∨ o.verdict = .skipped →
      (SameFiles b.disk after.disk ↔ ¬ Spills s mirror words p b)) ∧
    (∀ status, o.verdict = .rendered status → ∃ content bytes,
      Renders s mirror words p b content ∧ Utf8.encode content = .ok bytes ∧
        after.disk.readBytes o.output = .ok bytes) ∧
    ∀ l, (∀ made, ¬ Project.Opens s.projectRoot (Path.rendition p) b.disk made l) →
      ∀ bytes, after.disk.entry? l = some (.file bytes) ↔
        b.disk.entry? l = some (.file bytes) := by
  cases outcome_ends given with
  | idle nothing same verdict =>
    have sameFiles : SameFiles b.disk after.disk := fun l bytes => by rw [same]
    refine ⟨fun _ => iff_of_true sameFiles ?_, fun status rendered => ?_, fun l _ => sameFiles l⟩
    · rintro ⟨content, _, _, renders, _⟩
      exact nothing content renders
    · rw [rendered] at verdict
      rcases verdict with same | same <;> cases same
  | closed renders closed adds verdict =>
    have sameFiles : SameFiles b.disk after.disk := fun l bytes => adds.file_iff
    refine ⟨fun _ => iff_of_true sameFiles ?_, fun status rendered => ?_, fun l _ => sameFiles l⟩
    · rintro ⟨_, made, l, _, _, opens, _⟩
      exact closed made l opens
    · rw [rendered] at verdict
      cases verdict
  | @emptied content made l renders opens unencodable same verdict =>
    have named := Disk.ne_nil_of_writable opens.2.2.writable
    rw [same]
    refine ⟨fun _ => ⟨fun sameFiles spills => ?_, fun kept k bytes => ?_⟩,
      fun status rendered => ?_, fun k other bytes => ?_⟩
    -- What stood there is lost, unless it was empty already.
    · obtain ⟨_, _, _, _, _, also, notEmpty⟩ := spills
      obtain ⟨rfl, rfl⟩ := opens.unique also
      exact notEmpty ((sameFiles l []).1 (Disk.entry?_put_self made named _))
    · have wasEmpty : b.disk.entry? l = some (.file []) := Classical.byContradiction fun notEmpty =>
        kept ⟨content, made, l, renders, unencodable, opens, notEmpty⟩
      rw [opens.adds.file_put_iff named]
      split
      next here =>
        rw [here, wasEmpty]
        simp
      · rfl
    · rw [rendered] at verdict
      cases verdict
    · rw [opens.adds.file_put_iff named, if_neg (by rintro rfl; exact other made opens)]
  | @written content made l bytes status renders opens encoded same output verdict =>
    have named := Disk.ne_nil_of_writable opens.2.2.writable
    rw [same]
    refine ⟨fun failed => ?_, fun _ _ => ⟨content, bytes, renders, encoded, ?_⟩,
      fun k other more => ?_⟩
    · rw [verdict] at failed
      rcases failed with same | same <;> cases same
    · rw [output]
      exact opens.2.2.readBytes (opens.2.2.keeps_put _) (Disk.entry?_put_self made named _)
    · rw [opens.adds.file_put_iff named, if_neg (by rintro rfl; exact other made opens)]

/-- A site with a document whose only key is a lone surrogate, and with its rendition by an
    earlier run. -/
def surrogateSite : Disk := ⟨"/site", [(["site"], .directory),
  (["site", "bad.json"], .file (Utf8.encodeLoose "\x7b\"\\ud800\": 1\x7d")),
  (["site", "bad-ar.json"], .file [0x48, 0x69])]⟩

theorem kind_surrogateSite : FileKind.ofPath "/site/bad.json" = .document .json := by decide

theorem rendition_surrogateSite : Path.rendition "/site/bad.json" = "/site/bad-ar.json" := by decide

theorem read_surrogateSite : Project.read surrogateSite "/site" "/site/tool" "/site/bad.json" =
    .ok "\x7b\"\\ud800\": 1\x7d" := by
  have included : Project.isExcluded surrogateSite "/site" "/site/tool" Project.excludedNames
      "/site/bad.json" = .ok false := by cbv
  have text : surrogateSite.readText "/site/bad.json" = .ok "\x7b\"\\ud800\": 1\x7d" := by cbv
  rw [Project.read, Project.refusal?, kind_surrogateSite, included, text]
  rfl

theorem opens_surrogateSite : Project.Opens "/site" "/site/bad-ar.json" surrogateSite
    surrogateSite ["site", "bad-ar.json"] := by
  have inside : Project.isWithin surrogateSite "/site" "/site/bad-ar.json" = .ok true := by cbv
  have found : surrogateSite.locate .creation "/site/bad-ar.json" =
      .ok (.there ["site", "bad-ar.json"] (.file [0x48, 0x69])) := by cbv
  refine ⟨?_, ?_, _, found, trivial, rfl⟩
  · rw [Project.checkTarget, inside]
    rfl
  · cbv

theorem draft_surrogateSite [Script.Parser] :
    draft none ⟨[], []⟩ "/site/bad.json" "\x7b\"\\ud800\": 1\x7d" ⟨[], []⟩ =
      (.ok ⟨⟨"/site/bad.json", .document .json, .rendered .unchanged, "/site/bad-ar.json", []⟩,
        renderedEntry "/site/bad.json",
        some (Json.write (.obj [([⟨0xd800, by decide⟩], .int 1)]))⟩, ⟨[], []⟩) := by
  have parsed : Json.read "\x7b\"\\ud800\": 1\x7d" =
      .ok (.obj [([⟨0xd800, by decide⟩], .int 1)]) := by cbv
  simp only [draft, kind_surrogateSite, draftDocument]
  rw [translateBy_of_no_strays, translateDocument, translateData, parsed, rendition_surrogateSite]
  rfl

section

open scoped Installed

/-- The document fails, and the rendition of the earlier run is emptied. -/
theorem outcome_truthful_surrogate :
    let s := Settings.default "/site/tool"
    ∃ o after, outcome s none ⟨[], []⟩ "/site/bad.json" ⟨surrogateSite, ⟨[], []⟩⟩ = (.ok o, after) ∧
      o.verdict = .failed ∧ ¬ SameFiles surrogateSite after.disk := by
  intro s
  have root : s.projectRoot = "/site" := by cbv
  have read : Project.read surrogateSite s.projectRoot s.toolRoot "/site/bad.json" = _ :=
    root ▸ read_surrogateSite
  have opens : Project.Opens s.projectRoot (Path.rendition "/site/bad.json") surrogateSite
      surrogateSite _ := root ▸ rendition_surrogateSite ▸ opens_surrogateSite
  have renders : Renders s none ⟨[], []⟩ "/site/bad.json" ⟨surrogateSite, ⟨[], []⟩⟩ _ :=
    renders_iff.2 ⟨_, _, read, by rw [draft_surrogateSite], rfl⟩
  have stuck : ¬ Encodable (Json.write (.obj [([⟨0xd800, by decide⟩], .int 1)])) := by decide
  obtain ⟨e, failed⟩ : ∃ e, Utf8.encode (Json.write (.obj [([⟨0xd800, by decide⟩], .int 1)])) =
      .error e := by
    cases encoded : Utf8.encode (Json.write (.obj [([⟨0xd800, by decide⟩], .int 1)])) with
    | error e => exact ⟨e, rfl⟩
    | ok bytes => exact absurd (Utf8.encode_eq_ok_iff.1 encoded).1 stuck
  have rendered : render s none ⟨[], []⟩ "/site/bad.json" ⟨surrogateSite, ⟨[], []⟩⟩ =
      (.error (.project (.access (.unencodable e))),
        ⟨surrogateSite.put ["site", "bad-ar.json"] (.file []), ⟨[], []⟩⟩) := by
    rw [render_eq, read]
    simp only [draft_surrogateSite, settle, Project.write_of_opens opens, failed]
  have given : outcome s none ⟨[], []⟩ "/site/bad.json" ⟨surrogateSite, ⟨[], []⟩⟩ =
      (.ok (failedOutcome "/site/bad.json" (.project (.access (.unencodable e)))),
        ⟨surrogateSite.put ["site", "bad-ar.json"] (.file []), ⟨[],
          [failedEntry "/site/bad.json" (.project (.access (.unencodable e)))]⟩⟩) := by
    simp only [outcome, rendered, Failure.isExpected, if_true]
    rfl
  have notEmpty : surrogateSite.entry? ["site", "bad-ar.json"] ≠ some (.file []) := by decide
  refine ⟨_, _, given, rfl, fun same => ?_⟩
  exact ((outcome_truthful given).1 (.inl rfl)).1 same ⟨_, _, _, renders, stuck, opens, notEmpty⟩

end

end Arabize.Batch
