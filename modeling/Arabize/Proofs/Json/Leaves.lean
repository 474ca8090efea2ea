import Arabize.Proofs.Notes

/-! # The string leaves of a value

A value is its `shape` and its leaves: the shape keeps nesting, keys, lengths and every value
that is no string, and the leaves are its strings in document order.  To map the leaves of a
value is to keep its shape and to visit one leaf after the other (`mapLeaves_spec`).
-/

namespace Arabize.Json

mutual

/-- A value with all its strings emptied. -/
def shape : Json → Json
  | .str _ => .str []
  | .arr xs => .arr (shapeList xs)
  | .obj fs => .obj (shapeFields fs)
  | .null => .null
  | .bool b => .bool b
  | .int n => .int n
  | .float x => .float x

def shapeList : List Json → List Json
  | [] => []
  | x :: xs => shape x :: shapeList xs

def shapeFields : List (Text × Json) → List (Text × Json)
  | [] => []
  | (k, v) :: fs => (k, shape v) :: shapeFields fs

end

variable {σ : Type} {visit : Text → StateM σ Text}

theorem mapM_append_run (texts more : List Text) (s : σ) :
    (texts ++ more).mapM visit s =
      ((texts.mapM visit s).1 ++ (more.mapM visit (texts.mapM visit s).2).1,
        (more.mapM visit (texts.mapM visit s).2).2) := by
  rw [List.mapM_append]
  rfl

mutual

theorem graft_spec : ∀ (j : Json) (s : σ),
    (j.graft (fun t => do return .str (← visit t)) s).1.shape = j.shape ∧
      ((j.graft (fun t => do return .str (← visit t)) s).1.leaves,
        (j.graft (fun t => do return .str (← visit t)) s).2) = j.leaves.mapM visit s
  | .str t, s => by
    simp only [graft, leaves, List.mapM_cons, List.mapM_nil]
    exact ⟨rfl, rfl⟩
  | .arr xs, s => by
    obtain ⟨shapes, texts⟩ := graftList_spec xs s
    exact ⟨congrArg Json.arr shapes, texts⟩
  | .obj fs, s => by
    obtain ⟨shapes, texts⟩ := graftFields_spec fs s
    exact ⟨congrArg Json.obj shapes, texts⟩
  | .null, _ | .bool _, _ | .int _, _ | .float _, _ => ⟨rfl, rfl⟩

theorem graftList_spec : ∀ (xs : List Json) (s : σ),
    shapeList (graftList (fun t => do return .str (← visit t)) xs s).1 = shapeList xs ∧
      (leavesList (graftList (fun t => do return .str (← visit t)) xs s).1,
        (graftList (fun t => do return .str (← visit t)) xs s).2) = (leavesList xs).mapM visit s
  | [], _ => ⟨rfl, rfl⟩
  | x :: xs, s => by
    obtain ⟨shape, text⟩ := graft_spec x s
    obtain ⟨shapes, texts⟩ := graftList_spec xs
      (x.graft (fun t => do return .str (← visit t)) s).2
    rw [leavesList, mapM_append_run, ← text, ← texts]
    exact ⟨List.cons_eq_cons.2 ⟨shape, shapes⟩, rfl⟩

theorem graftFields_spec : ∀ (fs : List (Text × Json)) (s : σ),
    shapeFields (graftFields (fun t => do return .str (← visit t)) fs s).1 = shapeFields fs ∧
      (leavesFields (graftFields (fun t => do return .str (← visit t)) fs s).1,
        (graftFields (fun t => do return .str (← visit t)) fs s).2) =
          (leavesFields fs).mapM visit s
  | [], _ => ⟨rfl, rfl⟩
  | (k, v) :: fs, s => by
    obtain ⟨shape, text⟩ := graft_spec v s
    obtain ⟨shapes, texts⟩ := graftFields_spec fs
      (v.graft (fun t => do return .str (← visit t)) s).2
    rw [leavesFields, mapM_append_run, ← text, ← texts]
    exact ⟨List.cons_eq_cons.2 ⟨congrArg (Prod.mk k) shape, shapes⟩, rfl⟩

end

/-- To map the leaves of a value is to visit them one after the other, and to keep the rest. -/
theorem mapLeaves_spec (visit : Text → StateM σ Text) (j : Json) (s : σ) :
    (j.mapLeaves visit s).1.shape = j.shape ∧
      ((j.mapLeaves visit s).1.leaves, (j.mapLeaves visit s).2) = j.leaves.mapM visit s :=
  graft_spec j s

/-! ## Notes -/

theorem mapM_notes (visit : Text → StateM σ Text) (texts : List Text) (s : σ) :
    Notes (texts.mapM (noting visit)) (texts.mapM visit) s texts := by
  induction texts generalizing s with
  | nil => exact .pure _ _
  | cons t rest ih =>
    rw [List.mapM_cons, List.mapM_cons]
    exact (Notes.visit visit t s).bind fun _ _ _ => (ih _).map _

/-- The leaves of a value are the texts that are visited in it. -/
theorem mapLeaves_notes (visit : Text → StateM σ Text) (j : Json) (s : σ) :
    Notes (j.mapLeaves (noting visit)) (j.mapLeaves visit) s j.leaves := by
  intro seen
  obtain ⟨answers, _⟩ :=
    mapLeaves_lockstep (noting_alongside visit) j (s, seen) s rfl
  have states := congrArg Prod.snd (mapLeaves_spec (noting visit) j (s, seen)).2
  rw [mapM_notes visit j.leaves s seen, ← (mapLeaves_spec visit j s).2] at states
  exact Prod.ext answers states

end Arabize.Json
