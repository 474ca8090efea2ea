import Arabize.Document.Missing
import Arabize.Proofs.Script.Visits

/-! # Documents that end a search

The search for missing words visits a document as its translation does, with a visitor that
changes nothing.  Two kinds of documents end it: JSON with a numeral of too many digits, and
a program with a candidate that cannot be read (`search_returns_iff`).  Where the places in a
tree lie between code points, such a candidate has an escape that gives too large a number
(`searchable_iff`).
-/

namespace Arabize

variable {σ : Type}

/-- A visitor that changes nothing. -/
abbrev Idle (visit : Text → StateM σ Text) : Prop :=
  Phrase.Answers (fun _ => True) visit fun t => t

namespace Script

open Utf8 (Encodable)

variable {visit : Text → StateM σ Text} {content : Text} {source : Bytes}

/-- Where nothing is spelled anew there are no splices, and only a candidate that cannot be
    read is at fault. -/
theorem splicesAt_idle (source : Bytes) (sites : List Site) :
    splicesAt (fun t => t) source sites = (candidatesAt source sites).map fun _ => [] := by
  induction sites with
  | nil => rfl
  | cons s rest ih =>
    simp only [splicesAt, candidatesAt]
    -- What is not spelled anew has no splice, so only the reading can fail.
    cases candidate? source s with
    | error e => rfl
    | ok found =>
      cases found with
      | none => exact ih
      | some c =>
        simp only [spliceOf, or_true, if_true, ih]
        cases candidatesAt source rest <;> rfl

theorem editLiterals_idle (idle : Idle visit) (encoded : Utf8.encode content = .ok source)
    (root : Node) (s : σ) :
    ∃ t, editLiterals visit source root s =
      ((candidates source root).map fun _ => content, t) := by
  obtain ⟨encodable, rfl⟩ := Utf8.encode_eq_ok_iff.1 encoded
  obtain ⟨t, _, visited⟩ := visitSites_answers idle (Utf8.encodeLoose content)
    (literalSites root) (s := s) trivial
  rw [splicesAt_idle] at visited
  refine ⟨t, ?_⟩
  unfold editLiterals candidates
  cases listed : candidatesAt (Utf8.encodeLoose content) (literalSites root) with
  | error e =>
    rw [listed] at visited
    exact bind_of_error visited
  | ok cs =>
    rw [listed] at visited
    rw [bind_of_ok visited, run_return]
    have untouched : applySplices [] (Utf8.encodeLoose content) = Utf8.encodeLoose content := by
      rw [applySplices, descending, List.mergeSort_nil, List.foldl_nil]
    rw [untouched, Utf8.decode_encodeLoose encodable]
    rfl

/-- A visit of a program that changes nothing fails where a candidate of a program without
    errors cannot be read. -/
theorem editProgram_idle (idle : Idle visit) (read : Reading)
    (encoded : Utf8.encode content = .ok source) (s : σ) :
    Returns (editProgram read visit content) s ↔
      ((read content).hasError = false → ∃ cs, candidates source (read content) = .ok cs) := by
  have bytes : encodeText content = .ok source := by rw [encodeText, encoded]
  unfold editProgram
  rw [bytes, returns_bind_of_ok (run_return _ _)]
  by_cases faulty : (read content).hasError = true
  · dsimp only
    rw [if_pos faulty, faulty]
    exact iff_of_true (returns_pure _ _) (by simp)
  · dsimp only
    rw [if_neg faulty, Bool.eq_false_iff.2 faulty]
    simp only [true_implies]
    obtain ⟨t, edited⟩ := editLiterals_idle idle encoded (read content) s
    cases listed : candidates source (read content) with
    | error e =>
      rw [listed] at edited
      refine iff_of_false (not_returns_of_error (bind_of_error edited)) ?_
      rintro ⟨cs, found⟩
      cases found
    | ok cs =>
      rw [listed] at edited
      refine iff_of_true ?_ ⟨cs, rfl⟩
      rw [returns_bind_of_ok edited, returns_bind_of_ok (run_lift _ _)]
      exact returns_pure _ _

/-! ## Programs that can be read -/

/-- A literal of a program gives too large a number in an escape. -/
def HoldsTooLarge [Script.Parser] (dialect : Grammar.Dialect) (content : Text) : Prop :=
  (Parser.parse dialect content).hasError = false ∧
    ∃ s ∈ literalSites (Parser.parse dialect content), ∃ n,
      candidate? (Utf8.encodeLoose content) s = .error (.numberTooLarge n)

/-- Nothing else keeps the candidates of a program from being read. -/
theorem candidates_parse_iff [Script.Parser] (aligned : Parser.IsAligned)
    (encodable : Encodable content) (dialect : Grammar.Dialect) :
    (∃ cs, candidates (Utf8.encodeLoose content) (Parser.parse dialect content) = .ok cs) ↔
      ∀ s ∈ literalSites (Parser.parse dialect content), ∀ n,
        candidate? (Utf8.encodeLoose content) s ≠ .error (.numberTooLarge n) := by
  constructor
  · rintro ⟨cs, listed⟩ s isSite n failed
    obtain ⟨found, read⟩ := candidate?_of_listed listed isSite
    rw [failed] at read
    cases read
  · intro small
    exact candidatesAt_ok fun s isSite =>
      candidate?_ok (Utf8.encode_of_encodable encodable)
        (aligned dialect content encodable) isSite (small s isSite)

end Script

/-! ## Documents -/

namespace Missing

open Utf8 (Encodable)

/-- The documents that a search goes through: JSON without a numeral of too many digits, and
    programs whose candidates can be read. -/
def Searchable [Script.Parser] : Format → Text → Prop
  | .json, content => ¬ ∃ n, Json.read content = .error (.numeralTooLong n)
  | .html, _ => True
  | .program dialect, content => (Script.Parser.parse dialect content).hasError = false →
      ∃ cs, Script.candidates (Utf8.encodeLoose content) (Script.Parser.parse dialect content) =
        .ok cs

/-- The documents that end a search. -/
def Blocks [Script.Parser] : Format → Text → Prop
  | .json, content => ∃ n, Json.read content = .error (.numeralTooLong n)
  | .html, _ => False
  | .program dialect, content => Script.HoldsTooLarge dialect content

/-- Where a parser keeps what it promises, all other documents are gone through. -/
theorem searchable_iff [Script.Parser] (aligned : Script.Parser.IsAligned) (format : Format)
    {content : Text} (encodable : Encodable content) :
    Searchable format content ↔ ¬ Blocks format content := by
  cases format with
  | json => exact Iff.rfl
  | html => exact iff_of_true trivial id
  | program dialect =>
    rw [Searchable, Script.candidates_parse_iff aligned encodable, Blocks, Script.HoldsTooLarge]
    constructor
    · rintro small ⟨parses, site, isSite, n, failed⟩
      exact small parses site isSite n failed
    · intro small parses site isSite n failed
      exact small ⟨parses, site, isSite, n, failed⟩

theorem visit_idle (d : Lexicon) : Idle (visit d) := fun _ _ _ => ⟨rfl, trivial⟩

theorem ofName?_name (format : Format) : Format.ofName? format.name = some format := by
  cases format with
  | json => decide
  | html => decide
  | program dialect => cases dialect <;> decide

theorem searchJson_returns_iff (d : Lexicon) (content : Text) (s : Search) :
    Returns (searchJson d content) s ↔ ¬ ∃ n, Json.read content = .error (.numeralTooLong n) := by
  cases read : Json.read content with
  | ok j =>
    exact iff_of_true ⟨true, _, by simp only [searchJson, read]; rfl⟩ (by simp)
  | error e =>
    cases e with
    | numeralTooLong n =>
      refine iff_of_false (not_returns_of_error (e := .json (.numeralTooLong n)) (t := s) ?_)
        fun absent => absent ⟨n, rfl⟩
      simp only [searchJson, read]
    | malformed flaw line column offset =>
      exact iff_of_true ⟨false, _, by simp only [searchJson, read]; rfl⟩ (by simp)

theorem searchScript_returns_iff [Script.Parser] (d : Lexicon)
    (dialect : Script.Grammar.Dialect) {content : Text} (encodable : Encodable content)
    (s : Search) :
    Returns (searchScript d dialect content) s ↔ Searchable (.program dialect) content := by
  rw [Searchable, ← Script.editProgram_idle (visit_idle d) (Script.Parser.parse dialect)
    (Utf8.encode_of_encodable encodable) s.words]
  rcases run : Script.editProgram (Script.Parser.parse dialect) (visit d) content s.words
    with ⟨e | outcome, words⟩
  · refine iff_of_false (not_returns_of_error (e := .literal e) (t := { s with words }) ?_)
      (not_returns_of_error run)
    simp only [searchScript, run]
  · refine iff_of_true ?_ ⟨outcome, words, run⟩
    cases outcome with
    | ok edited => exact ⟨true, { s with words }, by simp only [searchScript, run]⟩
    | error message => exact ⟨false, _, by simp only [searchScript, run]; rfl⟩

/-- A document whose text can be encoded is gone through exactly if it is one of those,
    whatever the search looks for. -/
theorem search_returns_iff [Script.Parser] (d : Lexicon) (format : Format) {content : Text}
    (encodable : Encodable content) (s : Search) :
    Returns (search d format.name content) s ↔ Searchable format content := by
  rw [search, ofName?_name]
  cases format with
  | json => exact searchJson_returns_iff d content s
  | html => exact iff_of_true ⟨true, _, rfl⟩ trivial
  | program dialect => exact searchScript_returns_iff d dialect encodable s

end Missing

end Arabize
