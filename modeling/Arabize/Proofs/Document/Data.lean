import Arabize.Document.Translate
import Arabize.Proofs.Json.RoundTrip
import Arabize.Proofs.Runs

/-! # Translating JSON documents

To translate a JSON document is to translate its value: what is written in the end is read as
the value of the document with its leaves translated one after the other, and everything that
is no string kept (`translateData_faithful`).
-/

namespace Arabize

open Json (numberLayout)

variable {d : Lexicon}

/-- How many texts differ from what stands in their place. -/
def differences (texts answers : List Text) : Nat :=
  (texts.zip answers).countP fun pair => pair.1 != pair.2

theorem differences_cons (t u : Text) (texts answers : List Text) :
    differences (t :: texts) (u :: answers) =
      differences texts answers + if u = t then 0 else 1 := by
  rw [differences, List.zip_cons_cons, List.countP_cons, differences]
  by_cases same : u = t
  · simp [same]
  · simp [same, Ne.symm same]

/-- Visits that count do what visits do that do not, and count the texts that change. -/
theorem mapM_translateCounting (texts : List Text) (p : Phrase.Progress) :
    texts.mapM (Phrase.translateCounting d) p =
      ((texts.mapM (Phrase.translate d) p.memory).1,
        ⟨(texts.mapM (Phrase.translate d) p.memory).2,
          p.changes + differences texts (texts.mapM (Phrase.translate d) p.memory).1⟩) := by
  induction texts generalizing p with
  | nil => rfl
  | cons t rest ih =>
    rcases here : Phrase.translate d t p.memory with ⟨u, memory⟩
    have counted : Phrase.translateCounting d t p =
        (u, ⟨memory, if u = t then p.changes else p.changes + 1⟩) := by
      simp only [Phrase.translateCounting, here]
    have behind := ih ⟨memory, if u = t then p.changes else p.changes + 1⟩
    rw [List.mapM_cons, List.mapM_cons]
    change ((Phrase.translateCounting d t p).1 ::
        (rest.mapM (Phrase.translateCounting d) (Phrase.translateCounting d t p).2).1,
      (rest.mapM (Phrase.translateCounting d) (Phrase.translateCounting d t p).2).2) =
        ((Phrase.translate d t p.memory).1 ::
          (rest.mapM (Phrase.translate d) (Phrase.translate d t p.memory).2).1,
        ⟨(rest.mapM (Phrase.translate d) (Phrase.translate d t p.memory).2).2,
          p.changes + differences (t :: rest) ((Phrase.translate d t p.memory).1 ::
            (rest.mapM (Phrase.translate d) (Phrase.translate d t p.memory).2).1)⟩)
    rw [counted, here, behind, differences_cons]
    by_cases same : u = t
    · simp only [if_pos same, Nat.add_zero]
    · simp only [if_neg same]
      rw [Nat.add_right_comm, Nat.add_assoc p.changes]

/-- A translated document is read as its value translated.  From any memory, a document that is
    read as a value is translated into one that is read as a value of the same shape: with the
    same nesting, the same keys in the same order, the same lengths and the same numbers, booleans
    and nulls.  Its leaves are what the translation gives for the leaves of the document, one after
    the other, with the memory carried along; its replacements are the leaves that have changed;
    and it counts as translated exactly if there are any.  Of a finite double it is asked that what
    is written for it is read as the same double. -/
theorem translateData_faithful {content : Text} {j : Json} (reads : Json.read content = .ok j)
    (doubles : ∀ x ∈ j.doubles, Json.read (numberLayout.double x) = .ok (.float x)) (run : Run) :
    ∃ r after k, translateData d content run = (.ok r, after) ∧
      Json.read r.content = .ok k ∧ k.shape = j.shape ∧
      j.leaves.mapM (Phrase.translate d) run.memory = (k.leaves, after.memory) ∧
      r.replacements = differences j.leaves k.leaves ∧
      (r.status = .translated ↔ r.replacements ≠ 0) ∧
      (r.status = .unchanged ↔ r.replacements = 0) := by
  -- What was read can be written and read back; only of a double this has to be asked.
  have writable : ∀ part ∈ j.parts, part.Writable := by
    intro part member
    cases part with
    | float x =>
      refine Json.writable_float ?_
      rintro negative m e rfl
      exact doubles _ (Json.mem_doubles member)
    | _ => exact Json.read_regular reads _ member fun _ => by simp
  rcases mapped : j.mapLeaves (Phrase.translateCounting d) ⟨run.memory, 0⟩ with ⟨k, p⟩
  obtain ⟨shape, visited⟩ := Json.mapLeaves_spec (Phrase.translateCounting d) j ⟨run.memory, 0⟩
  rw [mapped, mapM_translateCounting] at visited
  rw [mapped] at shape
  dsimp only at shape visited
  rw [Nat.zero_add, Prod.mk.injEq] at visited
  obtain ⟨leaves, rfl⟩ := visited
  have translated : translateData d content run =
      (.ok (k.rendition (differences j.leaves k.leaves)),
        { run with memory := (j.leaves.mapM (Phrase.translate d) run.memory).2 }) := by
    rw [leaves]
    simp only [translateData, reads, mapped]
  refine ⟨_, _, k, translated, Json.read_write (Json.writable_of_shape shape writable), shape, ?_,
    rfl, ?_, ?_⟩
  · rw [leaves]
    rfl
  all_goals by_cases same : differences j.leaves k.leaves = 0 <;> simp [Json.rendition, same]

/-- A document with an object, an array, numbers of both sorts and a text that changes. -/
theorem translateData_faithful_nested :
    let d : Lexicon := [("Home", "X")]
    let content : Text :=
      "\x7b\"a\": [\"Home\", 12, -2.5, NaN], \"b\": \x7b\"a\": \"Home\"\x7d\x7d"
    let double : Binary64 := .ofDecimal true 25 2 (-1)
    let run : Run := ⟨[], []⟩
    ∃ j, Json.read content = .ok j ∧ j.leaves = (["Home", "Home"] : List Text) ∧
      j.doubles = [double] ∧
      (∀ x ∈ j.doubles, Json.read (numberLayout.double x) = .ok (.float x)) ∧
      ∃ r after k, translateData d content run = (.ok r, after) ∧
        Json.read r.content = .ok k ∧ k.shape = j.shape ∧
        j.leaves.mapM (Phrase.translate d) run.memory = (k.leaves, after.memory) ∧
        r.replacements = differences j.leaves k.leaves ∧
        (r.status = .translated ↔ r.replacements ≠ 0) ∧
        (r.status = .unchanged ↔ r.replacements = 0) := by
  intro d content double run
  have given : (Json.read content).toOption.map (fun j => (j.leaves, j.doubles)) =
      some ((["Home", "Home"] : List Text), [double]) := by decide +kernel
  have again :
      (Json.read (numberLayout.double double)).toOption.bind Json.finite? = some double := by
    decide +kernel
  obtain ⟨j, parsed, lists⟩ := Option.map_eq_some_iff.1 given
  obtain ⟨k, found, isDouble⟩ := Option.bind_eq_some_iff.1 again
  rw [Json.eq_float_of_finite? isDouble] at found
  obtain ⟨leaves, same⟩ := Prod.mk.inj lists
  have reads := eq_ok_of_toOption parsed
  have doubles : ∀ x ∈ j.doubles, Json.read (numberLayout.double x) = .ok (.float x) := by
    rw [same]
    exact List.forall_mem_singleton.2 (eq_ok_of_toOption found)
  exact ⟨j, reads, leaves, same, doubles, translateData_faithful reads doubles run⟩

end Arabize
