import Arabize.Proofs.Document.Search
import Arabize.Proofs.Document.SharedMemory

/-! # Documents that end a run

A run is prepared for all faults of a document but one: a literal in which an escape gives
too large a number.  A translation meets it if no literal before it is at fault, that is, if
the translations before it can be encoded; one that cannot be is a fault that the run
survives (`translateDocument_unexpected_iff`).
-/

namespace Arabize

open Utf8 (Encodable)

/-! ## Programs -/

namespace Script

variable {spell : Text → Text} {source : Bytes}

/-- A literal that is not at fault: it can be read, and what is to stand in its place can be
    encoded. -/
def Passes (spell : Text → Text) (source : Bytes) (s : Site) : Prop :=
  ∃ found, candidate? source s = .ok found ∧
    ∀ c, found = some c → spell c.text = c.text ∨ Encodable (c.encode (spell c.text))

/-- Whether too large a number is the first fault that is met at the sites of a list. -/
def MeetsTooLarge (spell : Text → Text) (source : Bytes) (sites : List Site) : Prop :=
  ∃ before s after n, sites = before ++ s :: after ∧
    (∀ t ∈ before, Passes spell source t) ∧ candidate? source s = .error (.numberTooLarge n)

theorem not_meetsTooLarge_nil : ¬ MeetsTooLarge spell source [] := by
  rintro ⟨before, s, after, n, empty, _⟩
  simp at empty

theorem meetsTooLarge_cons {s : Site} {rest : List Site} :
    MeetsTooLarge spell source (s :: rest) ↔
      (∃ n, candidate? source s = .error (.numberTooLarge n)) ∨
        (Passes spell source s ∧ MeetsTooLarge spell source rest) := by
  constructor
  · rintro ⟨before, t, after, n, same, passed, failed⟩
    cases before with
    | nil =>
      rw [List.nil_append, List.cons.injEq] at same
      exact .inl ⟨n, same.1 ▸ failed⟩
    | cons first before =>
      rw [List.cons_append, List.cons.injEq] at same
      obtain ⟨rfl, rfl⟩ := same
      obtain ⟨here, behind⟩ := List.forall_mem_cons.1 passed
      exact .inr ⟨here, before, t, after, n, rfl, behind, failed⟩
  · rintro (⟨n, failed⟩ | ⟨passed, before, t, after, n, rfl, passedBehind, failed⟩)
    · exact ⟨[], s, rest, n, rfl, by simp, failed⟩
    · exact ⟨s :: before, t, after, n, rfl, List.forall_mem_cons.2 ⟨passed, passedBehind⟩, failed⟩

/-- A new spelling is at fault only if it is needed and cannot be encoded. -/
theorem spliceOf_cases (blank : ∀ t, Text.isBlank t = true → spell t = t) (c : Candidate) :
    (∃ here, spliceOf spell c = .ok here ∧
      (spell c.text = c.text ∨ Encodable (c.encode (spell c.text)))) ∨
    (∃ e, spliceOf spell c = .error (.unencodable e) ∧
      ¬ (spell c.text = c.text ∨ Encodable (c.encode (spell c.text)))) := by
  unfold spliceOf
  by_cases same : spell c.text = c.text
  · exact .inl ⟨[], if_pos (.inr same), .inl same⟩
  · have visible : ¬ Text.isBlank c.text = true := fun empty => same (blank _ empty)
    rw [if_neg (not_or.2 ⟨visible, same⟩), encodeText]
    cases encoded : Utf8.encode (c.encode (spell c.text)) with
    | ok bytes => exact .inl ⟨_, rfl, .inr (Utf8.encode_eq_ok_iff.1 encoded).1⟩
    | error e =>
      refine .inr ⟨e, rfl, not_or.2 ⟨same, fun encodable => ?_⟩⟩
      rw [Utf8.encode_of_encodable encodable] at encoded
      cases encoded

theorem splicesAt_tooLarge_iff (blank : ∀ t, Text.isBlank t = true → spell t = t)
    (sites : List Site) :
    (∃ n, splicesAt spell source sites = .error (.numberTooLarge n)) ↔
      MeetsTooLarge spell source sites := by
  induction sites with
  | nil => simp [splicesAt, not_meetsTooLarge_nil]
  | cons s rest ih =>
    rw [meetsTooLarge_cons, ← ih]
    simp only [splicesAt, Passes]
    -- The first fault decides: that of the literal, of its new spelling, or one behind it.
    cases candidate? source s with
    | error e => simp
    | ok found =>
      cases found with
      | none => simp
      | some c =>
        rcases spliceOf_cases blank c with ⟨here, spliced, passes⟩ | ⟨e, spliced, stuck⟩
        · cases splicesAt spell source rest <;> simp [spliced, passes, Except.map]
        · simp [spliced, stuck]

theorem editLiterals_tooLarge_iff {d : Lexicon} {memory : Phrase.Memory}
    (sound : Phrase.Sound d memory) (source : Bytes) (root : Node) :
    (∃ n, (editLiterals (Phrase.translateCounting d) source root ⟨memory, 0⟩).1 =
        .error (.numberTooLarge n)) ↔
      MeetsTooLarge (Phrase.answer d) source (literalSites root) := by
  rw [← splicesAt_tooLarge_iff fun _ => Phrase.answer_of_isBlank]
  obtain ⟨p, _, visited⟩ := visitSites_answers (Phrase.translateCounting_answers d) source
    (literalSites root) (s := ⟨memory, 0⟩) sound
  unfold editLiterals
  cases spliced : splicesAt (Phrase.answer d) source (literalSites root) with
  | error e =>
    rw [spliced] at visited
    rw [bind_of_error visited]
    simp
  | ok splices =>
    rw [spliced] at visited
    rw [bind_of_ok visited, run_return]
    -- What is left to fail is the decoding, and it fails otherwise.
    refine iff_of_false ?_ (by simp)
    rintro ⟨n, failed⟩
    cases decoded : Utf8.decode (applySplices splices source) <;> rw [decoded] at failed <;>
      cases failed

theorem translateProgram_tooLarge_iff {d : Lexicon} {memory : Phrase.Memory} {content : Text}
    (encodable : Encodable content) (sound : Phrase.Sound d memory) (read : Reading) :
    (∃ n, (translateProgram read d content memory).1 = .error (.numberTooLarge n)) ↔
      (read content).hasError = false ∧
        MeetsTooLarge (Phrase.answer d) (Utf8.encodeLoose content)
          (literalSites (read content)) := by
  rw [← editLiterals_tooLarge_iff sound]
  have bytes : encodeText content = .ok (Utf8.encodeLoose content) := by
    rw [encodeText, Utf8.encode_of_encodable encodable]
  unfold translateProgram editProgram
  rw [bytes, bind_of_ok (run_return _ _)]
  by_cases faulty : (read content).hasError = true
  · rw [if_pos faulty, faulty]
    refine iff_of_false ?_ (by simp)
    rintro ⟨n, failed⟩
    cases failed
  · rw [if_neg faulty, Bool.eq_false_iff.2 faulty]
    rcases edited : editLiterals (Phrase.translateCounting d) (Utf8.encodeLoose content)
      (read content) ⟨memory, 0⟩ with ⟨e | t, p⟩
    · rw [bind_of_error edited]
      simp
    · rw [bind_of_ok edited, bind_of_ok (run_lift _ _)]
      refine iff_of_false ?_ (by simp)
      rintro ⟨n, failed⟩
      cases failed

end Script

/-! ## Documents -/

/-- The documents whose translation is not prepared for their fault. -/
def Spoils [Script.Parser] (d : Lexicon) : Format → Text → Prop
  | .program dialect, content =>
    (Script.Parser.parse dialect content).hasError = false ∧
      Script.MeetsTooLarge (Phrase.answer d) (Utf8.encodeLoose content)
        (Script.literalSites (Script.Parser.parse dialect content))
  | _, _ => False

theorem translateScript_unexpected_iff [Script.Parser] {d : Lexicon} {content : Text} {run : Run}
    (encodable : Encodable content) (sound : Phrase.Sound d run.memory)
    (dialect : Script.Grammar.Dialect) :
    (∃ e, (translateScript d dialect content run).1 = .error e ∧ e.isExpected = false) ↔
      Spoils d (.program dialect) content := by
  rw [Spoils, ← Script.translateProgram_tooLarge_iff encodable sound]
  unfold translateScript
  rcases Script.translateProgram (Script.Parser.parse dialect) d content run.memory with
    ⟨e | r, memory⟩
  · cases e <;> simp [DocumentError.isExpected]
  · simp

/-- The translation of a document fails by a fault that a run is not prepared for if it
    meets too large a number, and only then. -/
theorem translateDocument_unexpected_iff [Script.Parser] {d : Lexicon} {content : Text} {run : Run}
    (encodable : Encodable content) (sound : Phrase.Sound d run.memory) (format : Format) :
    (∃ e, (translateDocument d format content run).1 = .error e ∧ e.isExpected = false) ↔
      Spoils d format content := by
  cases format with
  | json =>
    -- A numeral of too many digits is a fault that is expected.
    refine iff_of_false ?_ id
    rintro ⟨e, failed, unexpected⟩
    simp only [translateDocument, translateData] at failed
    split at failed
    · cases failed
      cases unexpected
    · cases failed
    · cases failed
  | html =>
    refine iff_of_false ?_ id
    rintro ⟨e, failed, _⟩
    cases failed
  | program dialect => exact translateScript_unexpected_iff encodable sound dialect

end Arabize
