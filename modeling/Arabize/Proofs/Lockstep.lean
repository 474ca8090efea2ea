import Arabize.Json.Value
import Arabize.Markup.Page
import Arabize.Proofs.Runs
import Arabize.Script.Edit

/-! # Visits in lockstep

The passes over a document hand one text after the other to a visitor and never look at
the state that the visitor carries along.  So two visitors that give the same answers
from related states, and keep their states related, are led through a document side by
side: the same texts are visited, the same document comes out, and the states are related
in the end.

`Lockstep` says this of two computations.  `Lockstep.bind` carries it over their sequences,
and the rest of this module carries it over the passes, one lemma for each.
-/

namespace Arabize

variable {σ τ α β ε : Type} {R : σ → τ → Prop}

/-- Two computations that give the same answer from related states and leave related states
    behind. -/
def Lockstep (R : σ → τ → Prop) (m : StateM σ α) (n : StateM τ α) : Prop :=
  ∀ s t, R s t → (m s).1 = (n t).1 ∧ R (m s).2 (n t).2

namespace Lockstep

theorem runs {m : StateM σ α} {n : StateM τ α} (here : Lockstep R m n) {s : σ} {t : τ}
    (related : R s t) : ∃ a s' t', m s = (a, s') ∧ n t = (a, t') ∧ R s' t' := by
  obtain ⟨answers, states⟩ := here s t related
  exact ⟨(m s).1, (m s).2, (n t).2, rfl, Prod.ext answers.symm rfl, states⟩

theorem pure (a : α) : Lockstep R (Pure.pure a : StateM σ α) (Pure.pure a : StateM τ α) :=
  fun _ _ related => ⟨rfl, related⟩

/-- What is in lockstep at each step is so as a whole. -/
theorem bind {m : StateM σ α} {n : StateM τ α} {f : α → StateM σ β} {g : α → StateM τ β}
    (first : Lockstep R m n) (next : ∀ a, Lockstep R (f a) (g a)) :
    Lockstep R (m >>= f) (n >>= g) := by
  intro s t related
  obtain ⟨answers, states⟩ := first s t related
  have further := next (m s).1 _ _ states
  rw [show (n >>= g) t = g (n t).1 (n t).2 from rfl, ← answers]
  exact further

/-- The same for computations that may fail: the first failure ends both. -/
theorem bindExcept {m : ExceptT ε (StateM σ) α} {n : ExceptT ε (StateM τ) α}
    {f : α → ExceptT ε (StateM σ) β} {g : α → ExceptT ε (StateM τ) β}
    (first : Lockstep R m.run n.run) (next : ∀ a, Lockstep R (f a).run (g a).run) :
    Lockstep R (m >>= f).run (n >>= g).run := by
  change Lockstep R (m.run >>= ExceptT.bindCont f) (n.run >>= ExceptT.bindCont g)
  refine bind first fun answer => ?_
  cases answer with
  | ok a => exact next a
  | error e => exact pure (Except.error e)

theorem lift {m : StateM σ α} {n : StateM τ α} (here : Lockstep R m n) :
    Lockstep R (ExceptT.lift m : ExceptT ε (StateM σ) α).run
      (ExceptT.lift n : ExceptT ε (StateM τ) α).run := by
  intro s t related
  obtain ⟨answers, states⟩ := here s t related
  exact ⟨congrArg Except.ok answers, states⟩

end Lockstep

variable {visit : Text → StateM σ Text} {other : Text → StateM τ Text}

/-! ## JSON documents -/

namespace Json

variable {graftOne : Text → StateM σ Json} {graftOther : Text → StateM τ Json}

mutual

theorem graft_lockstep (visits : ∀ t, Lockstep R (graftOne t) (graftOther t)) :
    ∀ j : Json, Lockstep R (j.graft graftOne) (j.graft graftOther)
  | .str t => by simpa only [graft] using visits t
  | .arr items => by
    simp only [graft]
    exact (graftList_lockstep visits items).bind fun _ => .pure _
  | .obj fields => by
    simp only [graft]
    exact (graftFields_lockstep visits fields).bind fun _ => .pure _
  | .null | .bool _ | .int _ | .float _ => by simpa only [graft] using Lockstep.pure _

theorem graftList_lockstep (visits : ∀ t, Lockstep R (graftOne t) (graftOther t)) :
    ∀ items : List Json, Lockstep R (graftList graftOne items) (graftList graftOther items)
  | [] => by simpa only [graftList] using Lockstep.pure _
  | x :: xs => by
    simp only [graftList]
    exact (graft_lockstep visits x).bind fun _ =>
      (graftList_lockstep visits xs).bind fun _ => .pure _

theorem graftFields_lockstep (visits : ∀ t, Lockstep R (graftOne t) (graftOther t)) :
    ∀ fields : List (Text × Json),
      Lockstep R (graftFields graftOne fields) (graftFields graftOther fields)
  | [] => by simpa only [graftFields] using Lockstep.pure _
  | (k, v) :: rest => by
    simp only [graftFields]
    exact (graft_lockstep visits v).bind fun _ =>
      (graftFields_lockstep visits rest).bind fun _ => .pure _

end

theorem mapLeaves_lockstep (visits : ∀ t, Lockstep R (visit t) (other t)) (j : Json) :
    Lockstep R (j.mapLeaves visit) (j.mapLeaves other) :=
  graft_lockstep (fun t => (visits t).bind fun _ => .pure _) j

end Json

/-! ## Pages -/

namespace Markup

theorem visitCore_lockstep (visits : ∀ t, Lockstep R (visit t) (other t)) (t : Text) :
    Lockstep R (visitCore visit t) (visitCore other t) := by
  simp only [visitCore]
  split
  · exact .pure _
  · refine (visits _).bind fun answer => ?_
    split <;> exact .pure _

theorem editPieces_lockstep (visits : ∀ t, Lockstep R (visit t) (other t)) (lowered : Text)
    (pieces : List Piece) :
    Lockstep R (editPieces visit lowered pieces) (editPieces other lowered pieces) := by
  induction pieces with
  | nil => exact .pure _
  | cons piece rest ih =>
    refine Lockstep.bind ?_ fun _ => ih.bind fun _ => .pure _
    cases piece with
    | other t => exact .pure _
    | span start t =>
      simp only [editPiece]
      split
      · exact .pure _
      · exact visitCore_lockstep visits t

theorem editSpans_lockstep (visits : ∀ t, Lockstep R (visit t) (other t)) (rule : SpanRule)
    (content : Text) : Lockstep R (editSpans rule visit content) (editSpans rule other content) :=
  editPieces_lockstep visits _ _

theorem editAttributePieces_lockstep (visits : ∀ t, Lockstep R (visit t) (other t))
    (content lowered : Text) (pieces : List AttributePiece) :
    Lockstep R (editAttributePieces visit content lowered pieces)
      (editAttributePieces other content lowered pieces) := by
  induction pieces with
  | nil => exact .pure _
  | cons piece rest ih =>
    refine Lockstep.bind ?_ fun _ => ih.bind fun _ => .pure _
    cases piece with
    | other c => exact .pure _
    | «attribute» start a spelling =>
      simp only [editAttributePiece]
      split
      · exact .pure _
      · refine (visits _).bind fun answer => ?_
        split <;> exact .pure _

theorem editEach_lockstep (visits : ∀ t, Lockstep R (visit t) (other t)) (names : List Text)
    (content : Text) :
    Lockstep R (editEach visit names content) (editEach other names content) := by
  induction names generalizing content with
  | nil => exact .pure _
  | cons name names ih => exact (editAttributePieces_lockstep visits _ _ _).bind fun _ => ih _

theorem editPage_lockstep (visits : ∀ t, Lockstep R (visit t) (other t)) (marked : Bool)
    (content : Text) : Lockstep R (editPage visit marked content) (editPage other marked content) :=
  (editSpans_lockstep visits _ _).bind fun _ => editEach_lockstep visits _ _

end Markup

/-! ## Programs -/

namespace Script

theorem visitCandidate_lockstep (visits : ∀ t, Lockstep R (visit t) (other t)) (c : Candidate) :
    Lockstep R (visitCandidate visit c).run (visitCandidate other c).run := by
  simp only [visitCandidate]
  split
  · exact .pure _
  · refine (visits _).lift.bindExcept fun answer => ?_
    split
    · exact .pure _
    · exact Lockstep.bindExcept (.pure _) fun _ => .pure _

theorem visitSites_lockstep (visits : ∀ t, Lockstep R (visit t) (other t)) (source : Bytes)
    (sites : List Site) :
    Lockstep R (visitSites visit source sites).run (visitSites other source sites).run := by
  induction sites with
  | nil => exact .pure _
  | cons site rest ih =>
    refine Lockstep.bindExcept (.pure _) fun found => ?_
    cases found with
    | none => exact ih
    | some c =>
      exact (visitCandidate_lockstep visits c).bindExcept fun _ => ih.bindExcept fun _ => .pure _

theorem editLiterals_lockstep (visits : ∀ t, Lockstep R (visit t) (other t)) (source : Bytes)
    (root : Node) :
    Lockstep R (editLiterals visit source root).run (editLiterals other source root).run :=
  (visitSites_lockstep visits _ _).bindExcept fun _ => .pure _

theorem editProgram_lockstep (visits : ∀ t, Lockstep R (visit t) (other t)) (read : Reading)
    (content : Text) :
    Lockstep R (editProgram read visit content).run (editProgram read other content).run := by
  refine Lockstep.bindExcept (.pure _) fun source => ?_
  by_cases faulty : (read content).hasError = true
  · simp only [faulty, if_true]
    exact .pure _
  · simp only [faulty]
    exact (editLiterals_lockstep visits source (read content)).bindExcept fun _ =>
      (Markup.editSpans_lockstep visits _ _).lift.bindExcept fun _ => .pure _

end Script

end Arabize
