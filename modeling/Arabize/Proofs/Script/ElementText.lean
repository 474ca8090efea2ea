import Arabize.Proofs.Markup.EditSpans
import Arabize.Proofs.Script.Visits

/-! # Text between the tags of a program

After the literals, a program is searched for text between tags without a look at its tree.
A `>` that compares opens a span like the `>` of a tag, and so code between it and the next
`<` is taken for text.

What this pass changes is stated exactly: the cores of the spans that the lexicon changes,
and nothing else (`translateProgram_exact`).  So it keeps to the element text of a program,
or to nothing where there is none, if and only if every such core lies in element text.
-/

namespace Arabize.Script

open Markup (elementSpans corePatches IsSpan insideRawBody)
open Node (Inside)
open Text (strip leadingBlanks)

variable {d : Lexicon} {p : Phrase.Progress}

/-- Whether a code point of a text stands in element text of a tree over its bytes. -/
def InElementText (root : Node) (content : Text) (k : Nat) : Prop :=
  ∃ n, Inside n root ∧ n.kind = .elementText ∧ n.start ≤ Utf8.size (content.take k) ∧
    Utf8.size (content.take k) < n.stop

/-- A span of a program that the lexicon changes. -/
def Changes (d : Lexicon) (content : Text) (start : Nat) (run : Text) : Prop :=
  IsSpan elementSpans content start run ∧ insideRawBody content.lower start = false ∧
    Phrase.answer d (strip run) ≠ strip run

theorem mem_corePatches {content : Text} {patch : Patch CodePoint} :
    patch ∈ corePatches elementSpans (Phrase.answer d) content ↔
      ∃ start run, Changes d content start run ∧
        patch = ⟨start + (leadingBlanks run).length,
          start + (leadingBlanks run).length + (strip run).length,
          Phrase.answer d (strip run)⟩ := by
  rw [Markup.mem_corePatches_iff (by decide)]
  constructor
  · rintro ⟨start, run, isSpan, outside, _, changes, rfl⟩
    exact ⟨start, run, ⟨isSpan, outside, changes⟩, rfl⟩
  · rintro ⟨start, run, ⟨isSpan, outside, changes⟩, rfl⟩
    refine ⟨start, run, isSpan, outside, fun empty => ?_, changes, rfl⟩
    rw [empty] at changes
    exact changes (Phrase.answer_of_isBlank rfl)

theorem editLiterals_answers {σ : Type} {good : σ → Prop} {visit : Text → StateM σ Text}
    {spell : Text → Text} (answers : Phrase.Answers good visit spell) (source : Bytes)
    (root : Node) {s t : σ} {edited : Text} (start : good s)
    (literals : editLiterals visit source root s = (.ok edited, t)) : good t := by
  obtain ⟨u, after, visited⟩ := visitSites_answers answers source (literalSites root) start
  unfold editLiterals at literals
  cases spliced : splicesAt spell source (literalSites root) with
  | error e =>
    rw [spliced] at visited
    rw [bind_of_error visited] at literals
    cases literals
  | ok splices =>
    rw [spliced] at visited
    rw [bind_of_ok visited, run_return] at literals
    rw [← (Prod.mk.inj literals).2]
    exact after

theorem editProgram_eq {σ : Type} {visit : Text → StateM σ Text} {read : Reading}
    {content edited : Text} {source : Bytes} {s t : σ}
    (encoded : Utf8.encode content = .ok source) (parses : (read content).hasError = false)
    (literals : editLiterals visit source (read content) s = (.ok edited, t)) :
    editProgram read visit content s =
      (.ok (.ok (Markup.editSpans elementSpans visit edited t).1),
        (Markup.editSpans elementSpans visit edited t).2) := by
  have bytes : encodeText content = .ok source := by rw [encodeText, encoded]
  unfold editProgram
  rw [bytes, bind_of_ok (run_return _ _)]
  simp only [parses, Bool.false_eq_true, if_false]
  rw [bind_of_ok literals, bind_of_ok (run_lift _ _)]
  rfl

/-- The second pass over a program, exactly.  It replaces the cores of the spans that the
    lexicon changes and keeps all else; it is the identity if and only if no span changes;
    and it keeps every code point outside of element text if and only if every core that
    changes lies in element text. -/
theorem translateProgram_exact {read : Reading} {content edited : Text} {source : Bytes}
    {memory : Phrase.Memory} (encoded : Utf8.encode content = .ok source)
    (parses : (read content).hasError = false) (reachable : Phrase.Reachable d memory)
    (literals : editLiterals (Phrase.translateCounting d) source (read content) ⟨memory, 0⟩ =
      (.ok edited, p)) :
    let cores := corePatches elementSpans (Phrase.answer d) edited
    (∃ r after, translateProgram read d content memory = (.ok r, after) ∧
      r.content = weave edited 0 cores) ∧
    InRow edited 0 cores ∧
    (weave edited 0 cores = edited ↔ ∀ start run, ¬ Changes d edited start run) ∧
    ((∀ k, ¬ InElementText (read edited) edited k →
        ∀ patch ∈ cores, ¬ (patch.start ≤ k ∧ k < patch.stop)) ↔
      ∀ start run, Changes d edited start run →
        ∀ k, start + (leadingBlanks run).length ≤ k →
          k < start + (leadingBlanks run).length + (strip run).length →
          InElementText (read edited) edited k) := by
  intro cores
  have answers := Phrase.translateCounting_answers d
  -- The memory that the first pass leaves is sound, so the second pass answers as the first did.
  have sound : Phrase.Sound d p.memory :=
    editLiterals_answers answers source (read content) (s := ⟨memory, 0⟩) reachable.sound literals
  refine ⟨?_, Markup.inRow_corePatches _ _ _, ?_, ?_⟩
  · have run := editProgram_eq encoded parses literals
    rw [(Markup.editSpans_eq_weave answers elementSpans edited sound).1] at run
    simp only [translateProgram, run]
    exact ⟨_, _, rfl, rfl⟩
  · rw [Markup.weave_corePatches_eq_iff, List.eq_nil_iff_forall_not_mem]
    constructor
    · intro nothing start run changes
      exact nothing _ (mem_corePatches.2 ⟨start, run, changes, rfl⟩)
    · intro unchanged patch member
      obtain ⟨start, run, changes, _⟩ := mem_corePatches.1 member
      exact unchanged start run changes
  · constructor
    · intro kept start run changes k low high
      refine Classical.byContradiction fun outside => ?_
      exact kept k outside _ (mem_corePatches.2 ⟨start, run, changes, rfl⟩) ⟨low, high⟩
    · rintro within k outside patch member ⟨low, high⟩
      obtain ⟨start, run, changes, rfl⟩ := mem_corePatches.1 member
      exact outside (within start run changes k low high)

/-- Two comparisons, read as a program without any element: the word between them changes. -/
theorem translateProgram_exact_comparison :
    let content : Text := "a > Hello && b < c"
    let source := Utf8.encodeLoose content
    let read : Reading := fun _ => .leaf .other 0 18
    let d : Lexicon := [("Hello", "X")]
    let cores := corePatches elementSpans (Phrase.answer d) content
    Utf8.encode content = .ok source ∧ (read content).hasError = false ∧
    Phrase.Reachable d [] ∧
    editLiterals (Phrase.translateCounting d) source (read content) ⟨[], 0⟩ =
      (.ok content, ⟨[], 0⟩) ∧
    cores = [⟨4, 14, "X && b"⟩] ∧
    (∃ r after, translateProgram read d content [] = (.ok r, after) ∧
      r.content = weave content 0 cores) ∧
    InRow content 0 cores ∧
    (weave content 0 cores = content ↔ ∀ start run, ¬ Changes d content start run) ∧
    ((∀ k, ¬ InElementText (read content) content k →
        ∀ patch ∈ cores, ¬ (patch.start ≤ k ∧ k < patch.stop)) ↔
      ∀ start run, Changes d content start run →
        ∀ k, start + (leadingBlanks run).length ≤ k →
          k < start + (leadingBlanks run).length + (strip run).length →
          InElementText (read content) content k) := by
  intro content source read d cores
  have encodable : Utf8.Encodable content := by decide
  have literals : editLiterals (Phrase.translateCounting d) source (read content) ⟨[], 0⟩ =
      (.ok content, ⟨[], 0⟩) := by
    have sites : literalSites (read content) = [] := by
      simp [literalSites, sitesOf_cons, sitesOf_nil, sitesBelow, siteHere, isLiteral, read,
        Node.leaf, Node.kind, Node.children]
    rw [editLiterals, sites]
    have nothing : visitSites (Phrase.translateCounting d) source [] ⟨[], 0⟩ =
        (.ok [], ⟨[], 0⟩) := rfl
    rw [bind_of_ok nothing, run_return,
      show applySplices [] source = source by simp [applySplices, descending],
      Utf8.decode_encodeLoose encodable]
  exact ⟨Utf8.encode_of_encodable encodable, rfl, .empty, literals, by decide,
    translateProgram_exact (Utf8.encode_of_encodable encodable) rfl .empty literals⟩

end Arabize.Script
