import Arabize.Proofs.Document.Visits
import Arabize.Script.Grammar.Reading

/-! # One round of questions is enough

The words that a search collects are those that its lexicon wants of the texts in the
documents.  The texts do not depend on the lexicon, and a lexicon that grows wants less: so
once every word collected has a translation, nothing is missing any more (`collect_closed`).
-/

namespace Arabize.Missing

variable {d larger : Lexicon}

/-! ## Growing lexicons -/

/-- A lexicon that has a translation wherever another one has. -/
def Extends (larger d : Lexicon) : Prop :=
  ∀ t, (d.entry? t).isSome = true → (larger.entry? t).isSome = true

theorem knows_iff {t : Text} :
    d.knows t = true ↔ (d.entry? t).isSome = true ∨ (d.entry? t.lower).isSome = true := by
  rw [Lexicon.knows, Lexicon.lookup?, Option.isSome_or, Bool.or_eq_true]

theorem Extends.knows (extension : Extends larger d) {t : Text} (known : d.knows t = true) :
    larger.knows t = true :=
  knows_iff.2 ((knows_iff.1 known).imp (extension _) (extension _))

/-- What a lexicon has no entry for it classifies by the text alone. -/
theorem classify_of_unknown {t : Text} (unknown : d.knows t = false)
    (unknownToo : larger.knows t = false) :
    Phrase.classify larger t = Phrase.classify d t := by
  cases t with
  | nil => rfl
  | cons c rest => simp only [Phrase.classify, unknown, unknownToo]

theorem isWanted_iff {t : Text} :
    isWanted d t = true ↔ Phrase.isSafe d t = true ∧ d.knows t = false := by
  rw [isWanted, Bool.and_eq_true, Bool.not_eq_true']

/-- A lexicon that grows wants less. -/
theorem Extends.isWanted (extension : Extends larger d) {t : Text}
    (wanted : isWanted larger t = true) : isWanted d t = true := by
  obtain ⟨safe, unknown⟩ := isWanted_iff.1 wanted
  have unknownBefore : d.knows t = false := by
    rw [← Bool.not_eq_true] at unknown ⊢
    exact mt extension.knows unknown
  rw [Phrase.isSafe, classify_of_unknown unknownBefore unknown] at safe
  exact isWanted_iff.2 ⟨safe, unknownBefore⟩

/-! ## Words that are noted -/

theorem mem_add {w t : Text} {words : Words} : w ∈ add t words ↔ w ∈ words ∨ w = t := by
  unfold add
  split
  next known =>
    refine ⟨.inl, ?_⟩
    rintro (member | rfl)
    · exact member
    · exact List.contains_iff_mem.1 known
  next => rw [List.mem_append, List.mem_singleton]

theorem mem_addAll {w : Text} {new : List Text} {words : Words} :
    w ∈ new.foldl (fun ws t => add t ws) words ↔ w ∈ words ∨ w ∈ new := by
  induction new generalizing words with
  | nil => simp
  | cons t rest ih => rw [List.foldl_cons, ih, mem_add, List.mem_cons, or_assoc]

theorem mem_replay {w : Text} {texts : List Text} {words : Words} :
    w ∈ replay (visit d) words texts ↔ w ∈ words ∨ ∃ t ∈ texts, w ∈ wantedIn d t := by
  induction texts generalizing words with
  | nil => simp [replay]
  | cons t rest ih =>
    change w ∈ replay (visit d) (visit d t words).2 rest ↔ _
    rw [ih, visit, mem_addAll, or_assoc]
    simp only [List.mem_cons, exists_eq_or_imp]

theorem nodup_add {words : Words} (nodup : words.Nodup) (t : Text) : (add t words).Nodup := by
  unfold add
  split
  · exact nodup
  next unknown =>
    refine List.nodup_append.2 ⟨nodup, by simp, ?_⟩
    rintro w member _ isLast rfl
    rw [List.mem_singleton.1 isLast] at member
    exact unknown (List.contains_iff_mem.2 member)

/-- No word is noted twice. -/
theorem nodup_replay {words : Words} (nodup : words.Nodup) (texts : List Text) :
    (replay (visit d) words texts).Nodup := by
  have added : ∀ (new : List Text) {words : Words}, words.Nodup →
      (new.foldl (fun ws t => add t ws) words).Nodup := by
    intro new
    induction new with
    | nil => exact id
    | cons t rest ih => exact fun nodup => ih (nodup_add nodup t)
  induction texts generalizing words with
  | nil => exact nodup
  | cons t rest ih => exact ih (added _ nodup)

theorem isWanted_of_mem {w t : Text} (member : w ∈ wantedIn d t) : isWanted d w = true := by
  unfold wantedIn at member
  split at member
  next wanted =>
    rcases List.mem_cons.1 member with rfl | part
    · exact wanted
    · exact (List.mem_filter.1 part).2
  next => cases member

theorem isBlank_of_isWanted {w : Text} (wanted : isWanted d w = true) : Text.isBlank w = false := by
  cases blank : Text.isBlank w with
  | false => rfl
  | true =>
    rw [isWanted, Phrase.isSafe_eq_false_of_isBlank blank] at wanted
    cases wanted

/-! ## Documents -/

/-- The texts of a document given with the word of its format. -/
def textsOf [Script.Parser] (document : Text × Text) : List Text :=
  match Format.ofName? document.2 with
  | some format => textsUnder (fun t => t) format document.1
  | none => []

theorem search_words [Script.Parser] {format content : Text} {s t : Search} {found : Bool}
    (searched : search d format content s = (.ok found, t)) :
    t.words = replay (visit d) s.words (textsOf (content, format)) := by
  unfold textsOf
  cases known : Format.ofName? format with
  | none =>
    rw [search, known] at searched
    cases searched
    rfl
  | some f =>
    have named : f.name = format := by simpa using List.find?_some known
    subst named
    exact (search_visits searched).2

theorem searchAll_words [Script.Parser] {documents : List (Text × Text)} {s t : Search}
    (searched : searchAll d documents s = (.ok (), t)) :
    t.words = replay (visit d) s.words (documents.flatMap textsOf) := by
  induction documents generalizing s with
  | nil =>
    cases searched
    rfl
  | cons document rest ih =>
    rw [searchAll] at searched
    obtain ⟨found, u, here, behind⟩ := bind_eq_ok.1 searched
    rw [List.flatMap_cons, replay_append, ← search_words here]
    exact ih behind

/-- Whether a search fails does not depend on the lexicon. -/
theorem search_lockstep [Script.Parser] (d larger : Lexicon) (format content : Text) :
    Lockstep (fun _ _ => True) (search d format content).run
      (search larger format content).run := by
  intro s t _
  refine ⟨?_, trivial⟩
  simp only [ExceptT.run, search]
  cases Format.ofName? format with
  | none => rfl
  | some f =>
    cases f with
    | json =>
      simp only [searchJson]
      cases Json.read content with
      | error e => cases e <;> rfl
      | ok j => rfl
    | html => rfl
    | program dialect =>
      have visits : ∀ u, Lockstep (fun _ _ => True) (visit d u) (visit larger u) :=
        fun _ _ _ _ => ⟨rfl, trivial⟩
      obtain ⟨outcome, _, _, here, there, _⟩ :=
        (Script.editProgram_lockstep visits (Script.Parser.parse dialect) content).runs
          (s := s.words) (t := t.words) trivial
      simp only [ExceptT.run] at here there
      simp only [searchScript, here, there]
      rcases outcome with e | (message | edited) <;> rfl

theorem searchAll_lockstep [Script.Parser] (d larger : Lexicon) (documents : List (Text × Text)) :
    Lockstep (fun _ _ => True) (searchAll d documents).run (searchAll larger documents).run := by
  induction documents with
  | nil => exact .pure _
  | cons document rest ih => exact (search_lockstep d larger _ _).bindExcept fun _ => ih

theorem collect_eq_ok [Script.Parser] {documents : List (Text × Text)} {words : Words}
    (collected : collect d documents = .ok words) :
    words = replay (visit d) [] (documents.flatMap textsOf) := by
  unfold collect at collected
  split at collected
  next s searched =>
    cases collected
    exact searchAll_words searched
  next => cases collected

/-- A search that does not fail does so with no lexicon. -/
theorem collect_of_collect [Script.Parser] {documents : List (Text × Text)} {words : Words}
    (collected : collect d documents = .ok words) (larger : Lexicon) :
    collect larger documents = .ok (replay (visit larger) [] (documents.flatMap textsOf)) := by
  obtain ⟨outcome, s, t, here, there, _⟩ :=
    (searchAll_lockstep d larger documents).runs (s := ⟨[], []⟩) (t := ⟨[], []⟩) trivial
  simp only [ExceptT.run] at here there
  simp only [collect, here, there] at collected ⊢
  cases outcome with
  | error e => cases collected
  | ok _ =>
    dsimp only
    rw [searchAll_words there]

/-- What is collected is wanted, and once all of it has a translation nothing is wanted any more.
    A word is collected exactly if the lexicon wants it of some text in the documents; it is not
    blank, was written for people, and has no translation in either spelling; and a lexicon that
    keeps what was translated and has a translation of every word collected leaves no word to
    collect in the same documents. -/
theorem collect_closed [Script.Parser] {documents : List (Text × Text)} {words : Words}
    (collected : collect d documents = .ok words) :
    (∀ w, w ∈ words ↔ ∃ t ∈ documents.flatMap textsOf, w ∈ wantedIn d t) ∧
    (∀ w ∈ words, Text.isBlank w = false ∧ Phrase.isSafe d w = true ∧
      d.entry? w = none ∧ d.entry? w.lower = none) ∧
    ∀ larger : Lexicon, Extends larger d → (∀ w ∈ words, (larger.entry? w).isSome = true) →
      collect larger documents = .ok [] := by
  have found : ∀ w, w ∈ words ↔ ∃ t ∈ documents.flatMap textsOf, w ∈ wantedIn d t := by
    intro w
    rw [collect_eq_ok collected, mem_replay]
    simp only [List.not_mem_nil, false_or]
  refine ⟨found, fun w member => ?_, fun larger extension answered => ?_⟩
  · obtain ⟨t, _, wanted⟩ := (found w).1 member
    have needed := isWanted_of_mem wanted
    obtain ⟨safe, unknown⟩ := isWanted_iff.1 needed
    refine ⟨isBlank_of_isWanted needed, safe, ?_⟩
    rw [Lexicon.knows, Lexicon.lookup?, Option.isSome_eq_false_iff, Option.isNone_iff_eq_none,
      Option.or_eq_none_iff] at unknown
    exact unknown
  · rw [collect_of_collect collected larger, Except.ok.injEq, List.eq_nil_iff_forall_not_mem]
    intro w member
    obtain ⟨t, isText, wanted⟩ := (mem_replay.1 member).resolve_left List.not_mem_nil
    -- A text of which something is wanted is wanted itself, then as now.
    have wantedNow : isWanted larger t = true := by
      unfold wantedIn at wanted
      split at wanted
      next here => exact here
      next => cases wanted
    have wantedThen := extension.isWanted wantedNow
    have noted : t ∈ words := by
      refine (found t).2 ⟨t, isText, ?_⟩
      rw [wantedIn, if_pos wantedThen]
      exact List.mem_cons_self
    have known := knows_iff.2 (.inl (answered t noted))
    rw [(isWanted_iff.1 wantedNow).2] at known
    cases known

section

open scoped Installed

/-- A page and a JSON document: one text is known, one is a name, and two are missing. -/
theorem collect_closed_greeting :
    let d : Lexicon := [("home", "X")]
    let documents : List (Text × Text) :=
      [("<p>Home</p><p>Save now!</p>", "html"), ("[\"Open\", \"fooBar\"]", "json")]
    let words : Words := ["Save now!", "Save", "now!", "Open"]
    collect d documents = .ok words ∧
    (∀ w, w ∈ words ↔ ∃ t ∈ documents.flatMap textsOf, w ∈ wantedIn d t) ∧
    (∀ w ∈ words, Text.isBlank w = false ∧ Phrase.isSafe d w = true ∧
      d.entry? w = none ∧ d.entry? w.lower = none) ∧
    ∀ larger : Lexicon, Extends larger d → (∀ w ∈ words, (larger.entry? w).isSome = true) →
      collect larger documents = .ok [] := by
  intro d documents words
  have collected : collect d documents = .ok words := eq_ok_of_toOption (by decide +kernel)
  exact ⟨collected, collect_closed collected⟩

end

end Arabize.Missing
