import Mathlib.Data.List.Permutation
import Arabize.Project.Scan
import Arabize.Project.Survey
import Arabize.Proofs.Project.Guard

/-! # What a scan finds and what may be read

A scan leaves aside the directories that the settings name, and a survey passes over nothing that
belongs to the program itself, while a file that is read for its rendition is checked against the
excluded names that a program has without settings.  So the three do not accept the same files;
`checks_compared` says exactly when they do.
-/

namespace Arabize.Project

open Disk (Passable)

variable {d : Disk} {s : Search} {root tool p : Path} {found : List Path}

/-! ## What is found -/

theorem mem_wanted {paths : List Path} (given : wanted d s paths = .ok found) (member : p ∈ found) :
    isWanted d s p = .ok true := by
  induction paths generalizing found with
  | nil =>
    cases given
    cases member
  | cons q rest ih =>
    simp only [wanted] at given
    cases keep : isWanted d s q with
    | error e =>
      rw [keep] at given
      cases given
    | ok keeps =>
      cases more : wanted d s rest with
      | error e =>
        rw [keep, more] at given
        cases given
      | ok behind =>
        rw [keep, more] at given
        cases keeps with
        | false =>
          cases given
          exact ih more member
        | true =>
          cases given
          rcases List.mem_cons.1 member with rfl | inner
          · exact keep
          · exact ih more inner

theorem mem_files (given : files d s = .ok found) (member : p ∈ found) :
    isWanted d s p = .ok true := by
  unfold files at given
  split at given
  · split at given
    next inside =>
      cases given
      exact mem_wanted inside (List.mem_mergeSort.1 member)
    · cases given
  · cases given

/-- What a scan finds has passed the check of the scan, the root in its absolute form. -/
theorem isExcluded_of_scan {entry : LogEntry} (given : scan d s = .ok (found, entry))
    (member : p ∈ found) : FileKind.ofPath p ≠ .unknown ∧
      isExcluded d (Path.absolute d.cwd s.root) s.tool s.excluded p = .ok false := by
  have wanted : isWanted d { s with root := Path.absolute d.cwd s.root } p = .ok true := by
    unfold scan at given
    cases inside : files d { s with root := Path.absolute d.cwd s.root } with
    | error e =>
      simp only [inside] at given
      cases given
    | ok paths =>
      simp only [inside] at given
      cases given
      exact mem_files inside member
  unfold isWanted at wanted
  split at wanted
  · cases wanted
  next known =>
    refine ⟨known, ?_⟩
    cases excluded : isExcluded d (Path.absolute d.cwd s.root) s.tool s.excluded p with
    | error e =>
      simp only [excluded] at wanted
      cases wanted
    | ok answer =>
      simp only [excluded, Except.map, Except.ok.injEq, Bool.not_eq_true'] at wanted
      rw [wanted]

/-! ## What is turned away -/

/-- A file is let through to be read. -/
def Passes (d : Disk) (root tool p : Path) : Prop := refusal? d root tool p = .ok none

/-- A file that is to be read is rejected as of an unknown kind or as excluded. -/
def Rejects (d : Disk) (root tool p : Path) : Prop :=
  read d root tool p = .error (.unsupported p) ∨ read d root tool p = .error (.excluded p)

theorem rejects_iff : Rejects d root tool p ↔
    FileKind.ofPath p = .unknown ∨ isExcluded d root tool excludedNames p = .ok true := by
  unfold Rejects read refusal?
  by_cases unknown : FileKind.ofPath p = .unknown
  · simp [unknown]
  · have other : ∀ e, (d.readText p).mapError ProjectError.access = .error e →
        ∃ f, e = .access f := by
      intro e failed
      cases text : d.readText p with
      | error f =>
        rw [text] at failed
        cases failed
        exact ⟨f, rfl⟩
      | ok t =>
        rw [text] at failed
        cases failed
    cases isExcluded d root tool excludedNames p with
    | error e => simp [unknown]
    | ok answer =>
      cases answer with
      | true => simp [unknown]
      | false =>
        simp only [unknown, false_or]
        constructor
        · rintro (failed | failed) <;>
          · obtain ⟨f, given⟩ := other _ failed
            cases given
        · simp

/-- A survey lets a document through to be read. -/
def Surveys (d : Disk) (root p : Path) : Prop :=
  ∃ format, FileKind.ofPath p = .document format ∧ Passes d root [] p

/-! ## The three checks -/

section Found

variable {entry : LogEntry} (given : scan d s = .ok (found, entry)) (member : p ∈ found)

include given member

theorem rejects_iff_of_scan : Rejects d s.root s.tool p ↔ Passable s.root ∧
    (¬ Encloses d s.root p ∨ ∃ name ∈ between d s.root p, name ∈ excludedNames) := by
  obtain ⟨known, included⟩ := isExcluded_of_scan given member
  obtain ⟨inside, foreign, listed⟩ := isExcluded_eq_false_iff.1 included
  obtain ⟨⟨passable, _⟩, encloses⟩ := isWithin_eq_ok_iff.1 inside
  have notRendition : ¬ Path.isRendition p = true := by
    intro rendition
    have setAside : isSetAside d (Path.absolute d.cwd s.root) s.excluded p = true :=
      (isSetAside_iff (encloses.1 rfl).below).2 (.inr rendition)
    rw [listed] at setAside
    cases setAside
  rw [rejects_iff, isExcluded_of_foreign foreign]
  by_cases rooted : Passable s.root
  · by_cases within : Encloses d s.root p
    · have answer : isWithin d s.root p = .ok true :=
        isWithin_eq_ok_iff.2 ⟨⟨passable, rooted⟩, iff_of_true rfl within⟩
      simp [answer, Except.map, known, rooted, within, isSetAside_iff within.below, notRendition]
    · have answer : isWithin d s.root p = .ok false :=
        isWithin_eq_ok_iff.2 ⟨⟨passable, rooted⟩, iff_of_false (by simp) within⟩
      simp [answer, Except.map, rooted, within]
  · cases answer : isWithin d s.root p with
    | error e => simp [Except.map, known, rooted]
    | ok inside => exact absurd (isWithin_eq_ok_iff.1 answer).1.2 rooted

/-- Nothing that is found is rejected if the root is where its absolute form is and nothing less is
    excluded than without settings. -/
theorem not_rejects_of_scan (more : excludedNames ⊆ s.excluded)
    (same : d.realNames (Path.absolute d.cwd s.root) = d.realNames s.root) :
    ¬ Rejects d s.root s.tool p := by
  obtain ⟨_, included⟩ := isExcluded_of_scan given member
  obtain ⟨inside, _, listed⟩ := isExcluded_eq_false_iff.1 included
  have encloses : Encloses d (Path.absolute d.cwd s.root) p := (isWithin_eq_ok_iff.1 inside).2.1 rfl
  rw [rejects_iff_of_scan given member]
  rintro ⟨_, outside | ⟨name, onWay, excluded⟩⟩
  · apply outside
    rwa [Encloses, Below, same] at encloses
  · rw [between, ← same] at onWay
    have setAside := (isSetAside_iff encloses.below).2 (.inl ⟨name, onWay, more excluded⟩)
    rw [listed] at setAside
    cases setAside

end Found

theorem passes_iff_surveys (notSheet : FileKind.ofPath p ≠ .stylesheet) : Passes d root tool p ↔
    Surveys d root p ∧ (tool = [] ∨ isWithin d tool p = .ok false) := by
  have documented : FileKind.ofPath p ≠ .unknown ↔
      ∃ format, FileKind.ofPath p = .document format := by
    cases kind : FileKind.ofPath p <;> simp [kind] at notSheet ⊢
  simp only [Surveys, Passes, refusal?_eq_none_iff, isExcluded_eq_false_iff, documented]
  constructor
  · rintro ⟨⟨format, kind⟩, inside, foreign, listed⟩
    exact ⟨⟨format, kind, ⟨format, kind⟩, inside, .inl trivial, listed⟩, foreign⟩
  · rintro ⟨⟨format, kind, _, inside, _, listed⟩, foreign⟩
    exact ⟨⟨format, kind⟩, inside, foreign, listed⟩

/-- A file that a scan finds is rejected exactly if it is not in the project by the root as it is
    given, or lies below a directory that is excluded without settings.  A survey lets a document
    through that is rejected later exactly if it belongs to the program itself. -/
theorem checks_compared (d : Disk) (s : Search) :
    (∀ found entry, scan d s = .ok (found, entry) → ∀ p ∈ found,
      (Rejects d s.root s.tool p ↔ Passable s.root ∧
        (¬ Encloses d s.root p ∨ ∃ name ∈ between d s.root p, name ∈ excludedNames)) ∧
      (excludedNames ⊆ s.excluded →
        d.realNames (Path.absolute d.cwd s.root) = d.realNames s.root →
        ¬ Rejects d s.root s.tool p)) ∧
    ∀ p, FileKind.ofPath p ≠ .stylesheet → (Passes d s.root s.tool p ↔
      Surveys d s.root p ∧ (s.tool = [] ∨ isWithin d s.tool p = .ok false)) := by
  refine ⟨fun found entry given p member => ?_, fun p notSheet => passes_iff_surveys notSheet⟩
  exact ⟨rejects_iff_of_scan given member, not_rejects_of_scan given member⟩

/-- A project with the program and a directory of modules in it. -/
def moduleSite : Disk := ⟨"/site", [(["site"], .directory), (["site", "tool"], .directory),
  (["site", "tool", "page.json"], .file [0x31]), (["site", "dist"], .directory),
  (["site", "dist", "home.json"], .file [0x31])]⟩

/-- The settings that exclude no directory. -/
def openSearch : Search := ⟨"/site", "/site/tool", []⟩

theorem scan_moduleSite : ∃ entry,
    scan moduleSite openSearch = .ok ([Text.ofString "/site/dist/home.json"], entry) := by
  have root : Path.absolute moduleSite.cwd openSearch.root = "/site" := by cbv
  have there : moduleSite.locate .target "/site" =
      .ok (.there [Text.ofString "site"] .directory) := by cbv
  have below : filesBelow moduleSite openSearch (deepest moduleSite + 1) "/site"
      [Text.ofString "site"] = [Text.ofString "/site/dist/home.json"] := by cbv
  have kind : FileKind.ofPath "/site/dist/home.json" = .document .json := by decide
  have included : isExcluded moduleSite "/site" "/site/tool" [] "/site/dist/home.json" =
      .ok false := by cbv
  have kept : isWanted moduleSite openSearch "/site/dist/home.json" = .ok true := by
    rw [isWanted, kind]
    change Except.map not (isExcluded moduleSite "/site" "/site/tool" [] "/site/dist/home.json") = _
    rw [included]
    rfl
  have found : files moduleSite openSearch = .ok [Text.ofString "/site/dist/home.json"] := by
    rw [files, show openSearch.root = "/site" from rfl, there]
    simp only [below, wanted, kept]
    change Except.ok (Text.sort [_]) = _
    rw [Text.sort, List.mergeSort_singleton]
  rw [scan, root]
  change ∃ entry, (do
    let found ← files moduleSite openSearch
    return (found, scanEntry "/site" found)) = _
  rw [found]
  exact ⟨_, rfl⟩

/-- A file of a directory of modules is found and then rejected, and a document of the program is
    surveyed and then turned away. -/
theorem checks_compared_modules :
    (∃ entry, scan moduleSite openSearch = .ok ([Text.ofString "/site/dist/home.json"], entry)) ∧
      Rejects moduleSite openSearch.root openSearch.tool "/site/dist/home.json" ∧
      Surveys moduleSite openSearch.root "/site/tool/page.json" ∧
      ¬ Passes moduleSite openSearch.root openSearch.tool "/site/tool/page.json" := by
  obtain ⟨entry, found⟩ := scan_moduleSite
  obtain ⟨scanned, surveyed⟩ := checks_compared moduleSite openSearch
  have onWay : ∃ name ∈ between moduleSite openSearch.root "/site/dist/home.json",
      name ∈ excludedNames := by
    have names : between moduleSite openSearch.root "/site/dist/home.json" =
        [Text.ofString "dist"] := by cbv
    rw [names]
    decide
  have kind : FileKind.ofPath "/site/tool/page.json" = .document .json := by decide
  have included : isExcluded moduleSite openSearch.root [] excludedNames "/site/tool/page.json" =
      .ok false := by cbv
  have own : isWithin moduleSite openSearch.tool "/site/tool/page.json" = .ok true := by cbv
  have surveys : Surveys moduleSite openSearch.root "/site/tool/page.json" :=
    ⟨_, kind, refusal?_eq_none_iff.2 ⟨by simp [kind], included⟩⟩
  refine ⟨⟨entry, found⟩, ?_, surveys, fun passes => ?_⟩
  · exact (scanned _ _ found _ List.mem_cons_self).1.2 ⟨by decide, .inr onWay⟩
  · rcases ((surveyed _ (by simp [kind])).1 passes).2 with toolless | apart
    · revert toolless
      decide
    · rw [own] at apart
      cases apart

end Arabize.Project
