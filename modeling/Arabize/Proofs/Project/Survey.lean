import Arabize.Project.Survey
import Arabize.Proofs.Disk.Access
import Arabize.Proofs.Document.Closure
import Arabize.Proofs.Document.Search

/-! # Files that end a survey

A survey passes over what it cannot read, but not over a document that ends its search
(`survey_returns_iff`).  What one that goes through has found is wanted (`survey_wanted`).
-/

namespace Arabize.Project

variable {d : Disk} {root tool p : Path}

theorem encodable_read {content : Text} (found : read d root tool p = .ok content) :
    Utf8.Encodable content := by
  unfold read at found
  split at found
  · cases found
  · cases found
  · cases read : d.readText p with
    | error e =>
      rw [read] at found
      cases found
    | ok t =>
      rw [read] at found
      cases found
      exact Disk.encodable_readText read

/-- A file that is not read, or has a document that a search goes through. -/
def Searchable [Script.Parser] (d : Disk) (root p : Path) : Prop :=
  ∀ format content, FileKind.ofPath p = .document format → read d root [] p = .ok content →
    Missing.Searchable format content

/-- A file with a document that ends a search. -/
def Blocks [Script.Parser] (d : Disk) (root p : Path) : Prop :=
  ∃ format content, FileKind.ofPath p = .document format ∧ read d root [] p = .ok content ∧
    Missing.Blocks format content

theorem searchable_iff [Script.Parser] (aligned : Script.Parser.IsAligned) :
    Searchable d root p ↔ ¬ Blocks d root p := by
  constructor
  · rintro searchable ⟨format, content, kind, found, blocks⟩
    exact (Missing.searchable_iff aligned format (encodable_read found)).1
      (searchable format content kind found) blocks
  · intro free format content kind found
    exact (Missing.searchable_iff aligned format (encodable_read found)).2 fun blocks =>
      free ⟨format, content, kind, found, blocks⟩

theorem surveyFile_returns_iff [Script.Parser] (lexicon : Lexicon) (p : Path)
    (s : Missing.Search) :
    Returns (surveyFile d root lexicon p) s ↔ Searchable d root p := by
  unfold surveyFile Searchable
  cases kind : FileKind.ofPath p with
  | document format =>
    cases found : read d root [] p with
    | error e => exact iff_of_true ⟨(), { s with log := s.log ++ [unsearched p e] }, rfl⟩ (by simp)
    | ok content =>
      have only : (∀ f c, FileKind.document format = .document f →
          (Except.ok content : Except ProjectError Text) = .ok c → Missing.Searchable f c) ↔
            Missing.Searchable format content := by
        simp
      rw [only, ← Missing.search_returns_iff lexicon format (encodable_read found) s]
      rcases run : Missing.search lexicon format.name content s with ⟨e | read, after⟩
      · exact iff_of_false (not_returns_of_error (t := after) (by simp only [run]; rfl))
          (not_returns_of_error run)
      · exact iff_of_true ⟨(), after, by simp only [run]⟩ ⟨read, after, run⟩
  | stylesheet => exact iff_of_true ⟨(), s, rfl⟩ (by simp)
  | unknown => exact iff_of_true ⟨(), s, rfl⟩ (by simp)

/-- A survey goes through exactly if none of its files ends it, whatever it looks for. -/
theorem survey_returns_iff [Script.Parser] (d : Disk) (root : Path) (lexicon : Lexicon)
    (paths : List Path) (s : Missing.Search) :
    Returns (survey d root lexicon paths) s ↔ ∀ p ∈ paths, Searchable d root p := by
  induction paths generalizing s with
  | nil => exact iff_of_true (returns_pure _ _) (by simp)
  | cons p rest ih =>
    rw [survey, returns_bind, List.forall_mem_cons, ← surveyFile_returns_iff lexicon p s]
    constructor
    · rintro ⟨_, after, here, behind⟩
      exact ⟨⟨_, after, here⟩, (ih after).1 behind⟩
    · rintro ⟨⟨_, after, here⟩, behind⟩
      exact ⟨_, after, here, (ih after).2 behind⟩

theorem surveyFile_words [Script.Parser] {lexicon : Lexicon} {s t : Missing.Search}
    (surveyed : surveyFile d root lexicon p s = (.ok (), t)) :
    ∃ texts, t.words = replay (Missing.visit lexicon) s.words texts := by
  unfold surveyFile at surveyed
  split at surveyed
  next format _ =>
    split at surveyed
    · cases surveyed
      exact ⟨[], rfl⟩
    next content _ =>
      rcases run : Missing.search lexicon format.name content s with ⟨e | read, after⟩ <;>
        rw [run] at surveyed <;> cases surveyed
      exact ⟨_, Missing.search_words run⟩
  · cases surveyed
    exact ⟨[], rfl⟩

/-- No word is found twice. -/
theorem survey_nodup [Script.Parser] {lexicon : Lexicon} {paths : List Path} {s t : Missing.Search}
    (surveyed : survey d root lexicon paths s = (.ok (), t)) (nodup : s.words.Nodup) :
    t.words.Nodup := by
  induction paths generalizing s with
  | nil =>
    cases surveyed
    exact nodup
  | cons p rest ih =>
    obtain ⟨_, between, here, behind⟩ := bind_eq_ok.1 surveyed
    obtain ⟨texts, words⟩ := surveyFile_words here
    exact ih behind (words ▸ Missing.nodup_replay nodup texts)

/-- All that a survey has found is wanted. -/
theorem survey_wanted [Script.Parser] {lexicon : Lexicon} {paths : List Path} {s t : Missing.Search}
    (surveyed : survey d root lexicon paths s = (.ok (), t)) {w : Text} (found : w ∈ t.words) :
    w ∈ s.words ∨ Missing.isWanted lexicon w = true := by
  induction paths generalizing s with
  | nil =>
    cases surveyed
    exact .inl found
  | cons p rest ih =>
    obtain ⟨_, between, here, behind⟩ := bind_eq_ok.1 surveyed
    obtain ⟨texts, words⟩ := surveyFile_words here
    refine (ih behind).elim (fun before => ?_) .inr
    rw [words, Missing.mem_replay] at before
    refine before.imp_right fun wanted => ?_
    obtain ⟨_, _, member⟩ := wanted
    exact Missing.isWanted_of_mem member

end Arabize.Project
