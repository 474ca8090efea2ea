import Arabize.Json.Value
import Arabize.Proofs.Lockstep

/-! # Notes of the texts that are visited

Which texts a pass hands to its visitor is not in its result.  `noting` makes a visitor write
them down: it answers as before and keeps a list of the texts beside its state.

`Notes` says that a computation with such a visitor does what it does without the notes, and
which texts it has noted in the end.  As with `Lockstep`, one lemma carries this over sequences,
and each pass then has the list of its texts.
-/

namespace Arabize

variable {σ α β ε : Type}

/-- A visitor that also notes the texts that it is handed, in order. -/
def noting (visit : Text → StateM σ Text) (t : Text) : StateM (σ × List Text) Text :=
  fun (s, seen) => ((visit t s).1, (visit t s).2, seen ++ [t])

/-- From a state, a computation does what another one does, and notes these texts. -/
def Notes (m : StateM (σ × List Text) α) (n : StateM σ α) (s : σ) (texts : List Text) : Prop :=
  ∀ seen, m (s, seen) = ((n s).1, (n s).2, seen ++ texts)

namespace Notes

variable {s : σ} {texts more : List Text}

theorem pure (a : α) (s : σ) :
    Notes (Pure.pure a : StateM (σ × List Text) α) (Pure.pure a : StateM σ α) s [] := by
  intro seen
  rw [List.append_nil]
  rfl

theorem visit (visit : Text → StateM σ Text) (t : Text) (s : σ) :
    Notes (noting visit t) (visit t) s [t] := fun _ => rfl

/-- The texts of a sequence are those of its first step and then those of the rest. -/
theorem bind {m : StateM (σ × List Text) α} {n : StateM σ α}
    {f : α → StateM (σ × List Text) β} {g : α → StateM σ β} (first : Notes m n s texts)
    (next : ∀ a t, n s = (a, t) → Notes (f a) (g a) t more) :
    Notes (m >>= f) (n >>= g) s (texts ++ more) := by
  intro seen
  change f (m (s, seen)).1 (m (s, seen)).2 = ((g (n s).1 (n s).2).1, (g (n s).1 (n s).2).2, _)
  rw [first, next _ _ rfl, List.append_assoc]

/-- A last step that notes nothing. -/
theorem map {m : StateM (σ × List Text) α} {n : StateM σ α} (first : Notes m n s texts)
    (f : α → β) :
    Notes (m >>= fun a => Pure.pure (f a)) (n >>= fun a => Pure.pure (f a)) s texts := by
  rw [← List.append_nil texts]
  exact first.bind fun _ _ _ => .pure _ _

/-- The same for a computation that may fail, if its first step succeeds. -/
theorem bindExcept {m : ExceptT ε (StateM (σ × List Text)) α} {n : ExceptT ε (StateM σ) α}
    {f : α → ExceptT ε (StateM (σ × List Text)) β} {g : α → ExceptT ε (StateM σ) β} {a : α} {t : σ}
    (first : Notes m.run n.run s texts) (succeeds : n s = (.ok a, t))
    (next : Notes (f a).run (g a).run t more) :
    Notes (m >>= f).run (n >>= g).run s (texts ++ more) := by
  change Notes (m.run >>= ExceptT.bindCont f) (n.run >>= ExceptT.bindCont g) s _
  refine first.bind fun b u ran => ?_
  obtain ⟨rfl, rfl⟩ := Prod.mk.inj (succeeds.symm.trans ran)
  exact next

/-- A first step that only reads notes nothing. -/
theorem bindRead {r : Except ε α} {f : α → ExceptT ε (StateM (σ × List Text)) β}
    {g : α → ExceptT ε (StateM σ) β} {a : α} (reads : r = .ok a)
    (next : Notes (f a).run (g a).run s texts) :
    Notes (ExceptT.mk (return r) >>= f).run (ExceptT.mk (return r) >>= g).run s texts := by
  subst reads
  exact bindExcept (.pure _ _) rfl next

theorem lift {m : StateM (σ × List Text) α} {n : StateM σ α} (here : Notes m n s texts) :
    Notes (ExceptT.lift m : ExceptT ε (StateM (σ × List Text)) α).run
      (ExceptT.lift n : ExceptT ε (StateM σ) α).run s texts := by
  intro seen
  change (Except.ok (m (s, seen)).1, (m (s, seen)).2) = _
  rw [here]
  rfl

end Notes

theorem noting_alongside (visit : Text → StateM σ Text) (t : Text) :
    Lockstep (fun p s => p.1 = s) (noting visit t) (visit t) := by
  rintro ⟨_, seen⟩ s rfl
  exact ⟨rfl, rfl⟩

/-! ## Visits that are replayed -/

/-- The state after a visit of one text after the other. -/
def replay (visit : Text → StateM σ Text) (s : σ) (texts : List Text) : σ :=
  texts.foldl (fun s t => (visit t s).2) s

theorem replay_append (visit : Text → StateM σ Text) (s : σ) (texts more : List Text) :
    replay visit s (texts ++ more) = replay visit (replay visit s texts) more :=
  List.foldl_append

/-- The notes of a visitor account for its state. -/
def Accounted (visit : Text → StateM σ Text) (start : σ) (p : σ × List Text) (s : σ) : Prop :=
  p.1 = s ∧ s = replay visit start p.2

theorem noting_lockstep (visit : Text → StateM σ Text) (start : σ) (t : Text) :
    Lockstep (Accounted visit start) (noting visit t) (visit t) := by
  rintro ⟨_, seen⟩ s ⟨rfl, replayed⟩
  refine ⟨rfl, rfl, ?_⟩
  dsimp only [noting] at replayed ⊢
  rw [replay_append, ← replayed]
  rfl

/-- What a pass does to the state of its visitor is what the visits do, one after the other. -/
theorem replay_of_lockstep {visit : Text → StateM σ Text} {m : StateM (σ × List Text) α}
    {n : StateM σ α} {s : σ} (along : Lockstep (Accounted visit s) m n) :
    (n s).2 = replay visit s (m (s, [])).2.2 := by
  obtain ⟨_, _, accounted⟩ := along (s, []) s ⟨rfl, rfl⟩
  exact accounted

end Arabize
