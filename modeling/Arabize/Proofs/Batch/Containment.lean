import Arabize.Proofs.Batch.Truth
import Arabize.Proofs.Project.Guard
import Arabize.Script.Grammar.Reading

/-! # Where a rendering reads and writes

To render a file is to read it and to open its rendition.  Both are checked by real paths, each
with a check of its own: what is read lies in the project and outside the program's own directory,
and no excluded directory is on the way; what is written lies in the project.  A file that does not
pass has failed, and the disk stays as it was.
-/

namespace Arabize.Batch

open Disk (Grounded)
open Project (Below Cleared ReadsAt)

variable {s : Settings} {mirror : Option Mirror} {words : Vocabulary} {p : Path} {b after : Bench}
  {l : Location}

/-- The rendition of a file is opened for writing. -/
def WritesAt [Script.Parser] (s : Settings) (mirror : Option Mirror) (words : Vocabulary) (p : Path)
    (b : Bench) (l : Location) : Prop :=
  ∃ content made, Renders s mirror words p b content ∧
    Project.Opens s.projectRoot (Path.rendition p) b.disk made l

/-- A file is turned away: it may not be read, or its rendition may not be written. -/
def TurnedAway [Script.Parser] (s : Settings) (mirror : Option Mirror) (words : Vocabulary)
    (p : Path) (b : Bench) : Prop :=
  Project.refusal? b.disk s.projectRoot s.toolRoot p ≠ .ok none ∨
    ∃ content, Renders s mirror words p b content ∧
      (Project.checkTarget s.projectRoot (Path.rendition p) b.disk).1 ≠ .ok ()

/-- However a turn ends, the disk is that of an outcome. -/
theorem outcome_ended [Script.Parser] (s : Settings) (mirror : Option Mirror) (words : Vocabulary)
    (p : Path) (b : Bench) : ∃ o, Ended s mirror words p b o (outcome s mirror words p b).2.disk := by
  have ends := render_ends s mirror words p b
  unfold outcome
  rcases rendered : render s mirror words p b with ⟨e | o, next⟩ <;> rw [rendered] at ends
  · refine ⟨failedOutcome p e, ?_⟩
    dsimp only
    split <;> exact ends
  · exact ⟨o, ends⟩

/-- No file changes in a turn but the one that is written. -/
theorem outcome_elsewhere [Script.Parser] (apart : ¬ WritesAt s mirror words p b l)
    (bytes : Bytes) : (outcome s mirror words p b).2.disk.entry? l = some (.file bytes) ↔
      b.disk.entry? l = some (.file bytes) := by
  obtain ⟨o, ended⟩ := outcome_ended s mirror words p b
  cases ended with
  | idle _ same _ => rw [same]
  | closed _ _ adds _ => exact adds.file_iff
  | @emptied content made k renders opens _ same _ =>
    have other : l ≠ k := by
      rintro rfl
      exact apart ⟨content, made, renders, opens⟩
    rw [same, opens.adds.file_put_iff (Disk.ne_nil_of_writable opens.2.2.writable), if_neg other]
  | @written content made k _ _ renders opens _ same _ _ =>
    have other : l ≠ k := by
      rintro rfl
      exact apart ⟨content, made, renders, opens⟩
    rw [same, opens.adds.file_put_iff (Disk.ne_nil_of_writable opens.2.2.writable), if_neg other]

/-- A file that is turned away has failed, and nothing was written. -/
theorem outcome_of_turnedAway [Script.Parser] (turned : TurnedAway s mirror words p b) :
    (outcome s mirror words p b).2.disk = b.disk ∧
      ∃ o, (outcome s mirror words p b).1 = .ok o ∧ o.verdict = .failed := by
  rcases turned with refused | ⟨content, renders, refused⟩
  · have unread : ∃ e, Project.read b.disk s.projectRoot s.toolRoot p = .error e := by
      unfold Project.read
      split
      · exact ⟨_, rfl⟩
      · exact ⟨_, rfl⟩
      next passed => exact absurd passed refused
    obtain ⟨e, unread⟩ := unread
    rw [outcome_of_unreadable unread]
    exact ⟨rfl, _, rfl, rfl⟩
  · obtain ⟨source, t, found, drafted, text⟩ := renders_iff.1 renders
    obtain ⟨e, stuck⟩ := Project.write_of_refused refused content
    rcases work : draft mirror words p source b.run with ⟨result, run⟩
    rw [work] at drafted
    subst drafted
    rw [outcome_of_refused found work text stuck]
    exact ⟨rfl, _, rfl, rfl⟩

/-- What is read is the text of a file that may be read, and every disk with the same links and
    the same file there gives the same text. -/
theorem read_contained (own : s.toolRoot ≠ []) (notRoot : b.disk.realNames s.toolRoot ≠ [])
    {source : Text} (found : Project.read b.disk s.projectRoot s.toolRoot p = .ok source) :
    ∃ l, ReadsAt b.disk s.projectRoot s.toolRoot p l ∧
      Cleared b.disk s.projectRoot s.toolRoot p ∧
      (Grounded b.disk → l = b.disk.realNames p) ∧
      ∀ c, Disk.Alike b.disk c → c.entry? l = b.disk.entry? l →
        Project.read c s.projectRoot s.toolRoot p = .ok source := by
  obtain ⟨l, reads⟩ := Project.readsAt_of_read found
  refine ⟨l, reads, Project.cleared_of_refusal? own notRoot reads.1,
    fun grounded => reads.location grounded, fun c alike same => ?_⟩
  exact Project.read_confined alike (fun k also => reads.unique also ▸ same) found

/-- A turn reads nothing but a file in the project, outside the program's own directory and below no
    excluded directory, and what it renders was read there; it writes nothing but a file in the
    project.  The real path of each is where it is.  A file that is turned away or cannot be read
    fails, and nothing is written. -/
theorem outcome_contained [Script.Parser] (project : s.projectRoot ≠ []) (own : s.toolRoot ≠ [])
    (notRoot : b.disk.realNames s.toolRoot ≠ []) :
    (∀ source, Project.read b.disk s.projectRoot s.toolRoot p = .ok source →
      ∃ l, ReadsAt b.disk s.projectRoot s.toolRoot p l ∧
        Cleared b.disk s.projectRoot s.toolRoot p ∧
        (Grounded b.disk → l = b.disk.realNames p) ∧
        ∀ c, Disk.Alike b.disk c → c.entry? l = b.disk.entry? l →
          Project.read c s.projectRoot s.toolRoot p = .ok source) ∧
    (∀ l, ReadsAt b.disk s.projectRoot s.toolRoot p l →
      Cleared b.disk s.projectRoot s.toolRoot p ∧ (Grounded b.disk → l = b.disk.realNames p)) ∧
    (∀ content, Renders s mirror words p b content →
      ∃ source, Project.read b.disk s.projectRoot s.toolRoot p = .ok source) ∧
    (∀ l, WritesAt s mirror words p b l → Below b.disk s.projectRoot (Path.rendition p) ∧
      (Grounded b.disk → l = b.disk.realNames (Path.rendition p))) ∧
    (∀ l bytes, ¬ WritesAt s mirror words p b l →
      ((outcome s mirror words p b).2.disk.entry? l = some (.file bytes) ↔
        b.disk.entry? l = some (.file bytes))) ∧
    (TurnedAway s mirror words p b ∨
        (∃ e, Project.read b.disk s.projectRoot s.toolRoot p = .error e) →
      (outcome s mirror words p b).2.disk = b.disk ∧
        ∃ o, (outcome s mirror words p b).1 = .ok o ∧ o.verdict = .failed) := by
  refine ⟨fun source found => read_contained own notRoot found, fun l reads => ?_,
    fun content renders => ?_, fun l writes => ?_, fun l bytes apart => ?_, ?_⟩
  · exact ⟨Project.cleared_of_refusal? own notRoot reads.1, fun grounded => reads.location grounded⟩
  · obtain ⟨source, _, found, _⟩ := renders_iff.1 renders
    exact ⟨source, found⟩
  · obtain ⟨content, made, _, opens⟩ := writes
    exact ⟨opens.below project, fun grounded => opens.location grounded⟩
  · exact outcome_elsewhere apart bytes
  · rintro (turned | ⟨e, unread⟩)
    · exact outcome_of_turnedAway turned
    · rw [outcome_of_unreadable unread]
      exact ⟨rfl, _, rfl, rfl⟩

/-- A site whose style sheet is reached by a link to its directory. -/
def sheetSite : Disk := ⟨"/site", [(["site"], .directory), (["site", "tool"], .directory),
  (["site", "pages"], .directory), (["site", "link"], .link "pages"),
  (["site", "pages", "home.css"], .file [0x61])]⟩

theorem readsAt_sheetSite : ReadsAt sheetSite "/site" "/site/tool" "/site/link/home.css"
    ["site", "pages", "home.css"] := by
  have kind : FileKind.ofPath "/site/link/home.css" = .stylesheet := by decide
  have included : Project.isExcluded sheetSite "/site" "/site/tool" Project.excludedNames
      "/site/link/home.css" = .ok false := by cbv
  have there : sheetSite.locate .target "/site/link/home.css" =
      .ok (.there ["site", "pages", "home.css"] (.file [0x61])) := by cbv
  exact ⟨Project.refusal?_eq_none_iff.2 ⟨by simp [kind], included⟩, _, there⟩

theorem read_sheetSite : Project.read sheetSite "/site" "/site/tool" "/site/link/home.css" =
    .ok "a" := by
  have text : sheetSite.readText "/site/link/home.css" = .ok "a" := by cbv
  rw [Project.read, readsAt_sheetSite.1, text]
  rfl

theorem opens_sheetSite : Project.Opens "/site" "/site/link/home-ar.css" sheetSite sheetSite
    ["site", "pages", "home-ar.css"] := by
  have inside : Project.isWithin sheetSite "/site" "/site/link/home-ar.css" = .ok true := by cbv
  have lands : sheetSite.locate .creation "/site/link/home-ar.css" =
      .ok (.free ["site", "pages", "home-ar.css"]) := by cbv
  exact Project.opens_of_isDirectory inside (by cbv) ⟨_, lands, trivial, rfl⟩

section

open scoped Installed

/-- The style sheet is read and its rendition written where the link leads. -/
theorem outcome_contained_stylesheet :
    let s := Settings.default "/site/tool"
    s.projectRoot ≠ [] ∧ s.toolRoot ≠ [] ∧ sheetSite.realNames s.toolRoot ≠ [] ∧
      Project.read sheetSite s.projectRoot s.toolRoot "/site/link/home.css" = .ok "a" ∧
      ReadsAt sheetSite s.projectRoot s.toolRoot "/site/link/home.css"
        ["site", "pages", "home.css"] ∧
      (∀ c, Disk.Alike sheetSite c → c.entry? ["site", "pages", "home.css"] =
          sheetSite.entry? ["site", "pages", "home.css"] →
        Project.read c s.projectRoot s.toolRoot "/site/link/home.css" = .ok "a") ∧
      Cleared sheetSite s.projectRoot s.toolRoot "/site/link/home.css" ∧
      WritesAt s (some .ok) ⟨[], []⟩ "/site/link/home.css" ⟨sheetSite, ⟨[], []⟩⟩
        ["site", "pages", "home-ar.css"] ∧
      Below sheetSite s.projectRoot (Path.rendition "/site/link/home.css") := by
  intro s
  have root : s.projectRoot = "/site" := by cbv
  have own : s.toolRoot = "/site/tool" := rfl
  have output : Path.rendition "/site/link/home.css" = "/site/link/home-ar.css" := by decide
  have kind : FileKind.ofPath "/site/link/home.css" = .stylesheet := by decide
  have tool : sheetSite.realNames "/site/tool" =
      [Text.ofString "site", Text.ofString "tool"] := by cbv
  have project : s.projectRoot ≠ [] := by
    rw [root]
    decide
  have tooled : s.toolRoot ≠ [] := by
    rw [own]
    decide
  have notRoot : sheetSite.realNames s.toolRoot ≠ [] := by
    rw [own, tool]
    decide
  have reads : ReadsAt sheetSite s.projectRoot s.toolRoot "/site/link/home.css"
      ["site", "pages", "home.css"] := by
    rw [root, own]
    exact readsAt_sheetSite
  have found : Project.read sheetSite s.projectRoot s.toolRoot "/site/link/home.css" =
      .ok "a" := by
    rw [root, own]
    exact read_sheetSite
  have opens : Project.Opens s.projectRoot (Path.rendition "/site/link/home.css") sheetSite
      sheetSite ["site", "pages", "home-ar.css"] := by
    rw [root, output]
    exact opens_sheetSite
  have writes : WritesAt s (some .ok) ⟨[], []⟩ "/site/link/home.css" ⟨sheetSite, ⟨[], []⟩⟩
      ["site", "pages", "home-ar.css"] :=
    ⟨"a", sheetSite, .stylesheet kind found rfl rfl, opens⟩
  obtain ⟨taken, reading, _, writing, _, _⟩ := @outcome_contained s (some .ok) ⟨[], []⟩
    "/site/link/home.css" ⟨sheetSite, ⟨[], []⟩⟩ _ project tooled notRoot
  obtain ⟨l, also, _, _, same⟩ := taken "a" found
  cases reads.unique also
  exact ⟨project, tooled, notRoot, found, reads, same, (reading _ reads).1, writes,
    (writing _ writes).1⟩

end

end Arabize.Batch
