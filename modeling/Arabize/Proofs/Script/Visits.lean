import Arabize.Proofs.Phrase.Memory
import Arabize.Proofs.Runs
import Arabize.Proofs.Script.Candidate

/-! # Visits of the literals of a program

With a visitor whose answers depend on the text alone, the splices of a program depend on its
source alone: `splicesAt` are these splices, or what keeps them from being made, and a visit
of the sites comes to just that (`visitSites_answers`).
-/

namespace Arabize.Script

open Phrase (Answers)
open Utf8 (Encodable)

variable {σ : Type} {good : σ → Prop} {visit : Text → StateM σ Text} {spell : Text → Text}
  {source : Bytes}

/-- The splice of a candidate whose text is spelled anew, if that changes it. -/
def spliceOf (spell : Text → Text) (c : Candidate) : Except LiteralError (List Splice) :=
  if Text.isBlank c.text = true ∨ spell c.text = c.text then .ok []
  else (encodeText (c.encode (spell c.text))).map fun bytes => [⟨c.start, c.stop, bytes⟩]

/-- The splices at the sites of a list, or the first thing at fault. -/
def splicesAt (spell : Text → Text) (source : Bytes) :
    List Site → Except LiteralError (List Splice)
  | [] => .ok []
  | s :: rest =>
    match candidate? source s with
    | .error e => .error e
    | .ok none => splicesAt spell source rest
    | .ok (some c) =>
      match spliceOf spell c with
      | .error e => .error e
      | .ok here => (splicesAt spell source rest).map fun behind => here ++ behind

theorem visitCandidate_answers (answers : Answers good visit spell) (c : Candidate) {s : σ}
    (start : good s) : ∃ t, good t ∧ visitCandidate visit c s = (spliceOf spell c, t) := by
  unfold visitCandidate spliceOf
  by_cases blank : Text.isBlank c.text = true
  · rw [if_pos blank, if_pos (.inl blank)]
    exact ⟨s, start, rfl⟩
  · obtain ⟨answered, after⟩ := answers c.text s start
    refine ⟨_, after, ?_⟩
    rw [if_neg blank, bind_of_ok (run_lift _ _), answered]
    by_cases same : spell c.text = c.text
    · rw [if_pos same, if_pos (.inr same)]
      rfl
    · rw [if_neg same, if_neg (not_or.2 ⟨blank, same⟩)]
      cases encodeText (c.encode (spell c.text)) with
      | ok bytes => exact bind_of_ok (run_return _ _)
      | error e => exact bind_of_error (run_return _ _)

/-- A visit of the sites comes to their splices, and keeps the state as it should be. -/
theorem visitSites_answers (answers : Answers good visit spell) (source : Bytes)
    (sites : List Site) {s : σ} (start : good s) :
    ∃ t, good t ∧ visitSites visit source sites s = (splicesAt spell source sites, t) := by
  induction sites generalizing s with
  | nil => exact ⟨s, start, rfl⟩
  | cons site rest ih =>
    rw [visitSites]
    simp only [splicesAt]
    cases candidate? source site with
    | error e => exact ⟨s, start, bind_of_error (run_return _ _)⟩
    | ok found =>
      rw [bind_of_ok (run_return _ _)]
      cases found with
      | none => exact ih start
      | some c =>
        obtain ⟨t, between, visited⟩ := visitCandidate_answers answers c start
        dsimp only
        cases here : spliceOf spell c with
        | error e =>
          rw [here] at visited
          exact ⟨t, between, bind_of_error visited⟩
        | ok splices =>
          rw [here] at visited
          obtain ⟨u, after, later⟩ := ih between
          refine ⟨u, after, (bind_of_ok visited).trans ?_⟩
          cases behind : splicesAt spell source rest with
          | error e =>
            rw [behind] at later
            exact bind_of_error later
          | ok more =>
            rw [behind] at later
            exact bind_of_ok later

end Arabize.Script
