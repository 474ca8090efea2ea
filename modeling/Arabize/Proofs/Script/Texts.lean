import Arabize.Proofs.Document.Search
import Arabize.Proofs.Markup.Texts

/-! # The texts of a program

The first pass over a program visits the texts of its literals, and these are the same for
every visitor that does not fail.  The second pass visits what stands between the tags of the
program that the first has left, and so it depends on the answers.
-/

namespace Arabize.Script

open Markup (elementSpans spanTexts)
open Phrase (Answers)

variable {σ : Type} {good : σ → Prop} {visit : Text → StateM σ Text} {spell : Text → Text}
  {source : Bytes}

/-! ## Literals -/

/-- The text of a candidate, unless it is blank. -/
def Candidate.visited (c : Candidate) : List Text := if Text.isBlank c.text then [] else [c.text]

theorem visitCandidate_notes (visit : Text → StateM σ Text) (c : Candidate) (s : σ) :
    Notes (visitCandidate (noting visit) c).run (visitCandidate visit c).run s c.visited := by
  unfold visitCandidate Candidate.visited
  by_cases blank : Text.isBlank c.text = true
  · rw [if_pos blank, if_pos blank, if_pos blank]
    exact .pure _ _
  · rw [if_neg blank, if_neg blank, if_neg blank, ← List.append_nil [c.text]]
    refine .bindExcept (Notes.visit visit c.text s).lift (run_lift _ _) ?_
    split
    · exact .pure _ _
    -- Whether the answer can be encoded or not, nothing more is visited.
    · intro seen
      rw [List.append_nil]
      cases encodeText (c.encode (visit c.text s).1) <;> rfl

theorem visitSites_notes {sites : List Site} {s t : σ} {splices : List Splice}
    (succeeds : visitSites visit source sites s = (.ok splices, t)) :
    ∃ cs, candidatesAt source sites = .ok cs ∧
      Notes (visitSites (noting visit) source sites).run (visitSites visit source sites).run s
        (cs.flatMap Candidate.visited) := by
  induction sites generalizing s t splices with
  | nil => exact ⟨[], rfl, .pure _ _⟩
  | cons site rest ih =>
    rw [visitSites] at succeeds
    obtain ⟨found, u, read, further⟩ := bind_eq_ok.1 succeeds
    rw [run_return, Prod.mk.injEq] at read
    obtain ⟨isSite, rfl⟩ := read
    simp only [candidatesAt, isSite]
    cases found with
    | none =>
      obtain ⟨cs, listed, notes⟩ := ih further
      exact ⟨cs, listed, .bindRead isSite notes⟩
    | some c =>
      obtain ⟨here, v, visited, behind⟩ := bind_eq_ok.1 further
      obtain ⟨more, w, later, _⟩ := bind_eq_ok.1 behind
      obtain ⟨cs, listed, notes⟩ := ih later
      rw [listed]
      refine ⟨c :: cs, rfl, .bindRead isSite ?_⟩
      rw [List.flatMap_cons, ← List.append_nil (cs.flatMap Candidate.visited)]
      exact .bindExcept (visitCandidate_notes visit c _) visited
        (.bindExcept notes later (.pure _ _))

/-! ## Edited literals -/

/-- A program with its literals spelled anew. -/
def respellLiterals (spell : Text → Text) (source : Bytes) (root : Node) :
    Except LiteralError Text :=
  match splicesAt spell source (literalSites root) with
  | .error e => .error e
  | .ok splices =>
    match Utf8.decode (applySplices splices source) with
    | .ok t => .ok t
    | .error e => .error (.undecodable e)

theorem editLiterals_eq (answers : Answers good visit spell) (source : Bytes) (root : Node)
    {s : σ} (start : good s) :
    ∃ t, good t ∧ editLiterals visit source root s = (respellLiterals spell source root, t) := by
  obtain ⟨t, after, visited⟩ := visitSites_answers answers source (literalSites root) start
  refine ⟨t, after, ?_⟩
  unfold editLiterals respellLiterals
  cases spliced : splicesAt spell source (literalSites root) with
  | error e =>
    rw [spliced] at visited
    exact bind_of_error visited
  | ok splices =>
    rw [spliced] at visited
    exact (bind_of_ok visited).trans (run_return _ _)

theorem editLiterals_notes {root : Node} {s t : σ} {edited : Text}
    (succeeds : editLiterals visit source root s = (.ok edited, t)) :
    ∃ cs, candidates source root = .ok cs ∧
      Notes (editLiterals (noting visit) source root).run (editLiterals visit source root).run s
        (cs.flatMap Candidate.visited) := by
  unfold editLiterals at succeeds
  obtain ⟨splices, u, visited, _⟩ := bind_eq_ok.1 succeeds
  obtain ⟨cs, listed, notes⟩ := visitSites_notes visited
  refine ⟨cs, listed, ?_⟩
  rw [← List.append_nil (cs.flatMap _)]
  refine .bindExcept notes visited fun seen => ?_
  rw [List.append_nil]
  rfl

theorem splicesAt_of_kept {sites : List Site} {cs : List Candidate}
    (listed : candidatesAt source sites = .ok cs)
    (kept : ∀ t ∈ cs.flatMap Candidate.visited, spell t = t) :
    splicesAt spell source sites = .ok [] := by
  induction sites generalizing cs with
  | nil => rfl
  | cons s rest ih =>
    rcases candidatesAt_cons listed with ⟨here, later⟩ | ⟨c, behind, here, later, rfl⟩
    · simp only [splicesAt, here]
      exact ih later kept
    · rw [List.flatMap_cons, List.forall_mem_append] at kept
      have spliced : spliceOf spell c = .ok [] := by
        refine if_pos (Decidable.or_iff_not_imp_left.2 fun visible => kept.1 _ ?_)
        rw [Candidate.visited, if_neg visible]
        exact List.mem_singleton_self _
      simp only [splicesAt, here, spliced, ih later kept.2]
      rfl

/-! ## Programs -/

/-- The texts of the literals of a program that are visited; a program with an error, or with a
    literal that cannot be read, has none. -/
def literalTexts (read : Reading) (content : Text) : List Text :=
  if (read content).hasError then []
  else
    match candidates (Utf8.encodeLoose content) (read content) with
    | .ok cs => cs.flatMap Candidate.visited
    | .error _ => []

/-- The texts between the tags of a program once its literals are spelled anew. -/
def elementTexts (spell : Text → Text) (read : Reading) (content : Text) : List Text :=
  if (read content).hasError then []
  else
    match respellLiterals spell (Utf8.encodeLoose content) (read content) with
    | .ok edited => spanTexts elementSpans edited
    | .error _ => []

theorem encodeText_eq_ok {t : Text} {bytes : Bytes} (encoded : encodeText t = .ok bytes) :
    Utf8.Encodable t ∧ bytes = Utf8.encodeLoose t := by
  refine Utf8.encode_eq_ok_iff.1 ?_
  unfold encodeText at encoded
  split at encoded
  next same =>
    cases encoded
    exact same
  next => cases encoded

/-- A visit of a program that does not fail visits its literals, and then the text between the
    tags that these have left. -/
theorem editProgram_notes (answers : Answers good visit spell) {read : Reading} {content : Text}
    {s t : σ} {outcome : Outcome} (start : good s)
    (succeeds : editProgram read visit content s = (.ok outcome, t)) :
    Notes (editProgram read (noting visit) content).run (editProgram read visit content).run s
      (literalTexts read content ++ elementTexts spell read content) := by
  unfold editProgram at succeeds ⊢
  obtain ⟨source, u, encoded, further⟩ := bind_eq_ok.1 succeeds
  rw [run_return, Prod.mk.injEq] at encoded
  obtain ⟨bytes, rfl⟩ := encoded
  refine .bindRead bytes ?_
  unfold literalTexts elementTexts
  by_cases faulty : (read content).hasError = true
  · simp only [faulty, if_true]
    exact .pure _ _
  · simp only [faulty, if_false, Bool.false_eq_true] at further ⊢
    obtain ⟨inner, v, literals, _⟩ := bind_eq_ok.1 further
    obtain ⟨cs, listed, notes⟩ := editLiterals_notes literals
    -- What the literals leave depends on the answers alone.
    obtain ⟨_, _, edited⟩ := editLiterals_eq answers source (read content) start
    have left := (Prod.mk.inj (edited.symm.trans literals)).1
    rw [← (encodeText_eq_ok bytes).2, listed, left]
    refine .bindExcept notes literals ?_
    dsimp only
    rw [← List.append_nil (spanTexts elementSpans inner)]
    exact .bindExcept (Markup.editSpans_notes elementSpans visit inner v).lift (run_lift _ _)
      (.pure _ _)

/-- A program whose literals can all be read. -/
structure Readable (read : Reading) (content : Text) : Prop where
  encodable : Utf8.Encodable content
  parses : (read content).hasError = false
  listed : ∃ cs, candidates (Utf8.encodeLoose content) (read content) = .ok cs

theorem readable_of_edited {read : Reading} {content edited : Text} {s t : σ}
    (succeeds : editProgram read visit content s = (.ok (.ok edited), t)) :
    Readable read content := by
  unfold editProgram at succeeds
  obtain ⟨source, u, encoded, further⟩ := bind_eq_ok.1 succeeds
  rw [run_return, Prod.mk.injEq] at encoded
  obtain ⟨bytes, rfl⟩ := encoded
  obtain ⟨encodable, rfl⟩ := encodeText_eq_ok bytes
  by_cases faulty : (read content).hasError = true
  · simp only [faulty, if_true] at further
    cases further
  · simp only [faulty, if_false, Bool.false_eq_true] at further
    obtain ⟨inner, v, literals, _⟩ := bind_eq_ok.1 further
    obtain ⟨cs, listed, _⟩ := editLiterals_notes literals
    exact ⟨encodable, Bool.eq_false_iff.2 faulty, cs, listed⟩

/-- Where the texts of all literals are kept, the second pass sees the program as it is. -/
theorem elementTexts_of_kept {read : Reading} {content : Text} (readable : Readable read content)
    (kept : ∀ t ∈ literalTexts read content, spell t = t) :
    elementTexts spell read content = spanTexts elementSpans content := by
  obtain ⟨cs, listed⟩ := readable.listed
  simp only [literalTexts, readable.parses, Bool.false_eq_true, if_false, listed] at kept
  have untouched : applySplices [] (Utf8.encodeLoose content) = Utf8.encodeLoose content := by
    rw [applySplices, descending, List.mergeSort_nil, List.foldl_nil]
  simp only [elementTexts, readable.parses, Bool.false_eq_true, if_false, respellLiterals,
    splicesAt_of_kept listed kept, untouched, Utf8.decode_encodeLoose readable.encodable]

end Arabize.Script
