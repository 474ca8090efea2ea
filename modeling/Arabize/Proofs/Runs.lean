import Arabize.Text.Basic

/-! # Runs of computations that may fail

A computation over a state that may fail is run step by step: a step that succeeds hands its
answer and the state on, the first one that fails ends the run.
-/

namespace Arabize

variable {σ α β ε : Type}

/-- After a step that succeeds, the run goes on with what it gave. -/
theorem bind_of_ok {m : ExceptT ε (StateM σ) α} {f : α → ExceptT ε (StateM σ) β} {s t : σ} {a : α}
    (first : m s = (.ok a, t)) : (m >>= f) s = f a t := by
  change (m.run >>= ExceptT.bindCont f) s = f a t
  change ExceptT.bindCont f (m s).1 (m s).2 = f a t
  rw [first]
  rfl

theorem bind_of_error {m : ExceptT ε (StateM σ) α} {f : α → ExceptT ε (StateM σ) β} {s t : σ}
    {e : ε} (first : m s = (.error e, t)) : (m >>= f) s = (.error e, t) := by
  change (m.run >>= ExceptT.bindCont f) s = (.error e, t)
  change ExceptT.bindCont f (m s).1 (m s).2 = (.error e, t)
  rw [first]
  rfl

theorem run_lift (m : StateM σ α) (s : σ) :
    (ExceptT.lift m : ExceptT ε (StateM σ) α) s = (.ok (m s).1, (m s).2) := rfl

theorem run_return (r : Except ε α) (s : σ) :
    (ExceptT.mk (return r) : ExceptT ε (StateM σ) α) s = (r, s) := rfl

/-- Whether a computation gives an answer. -/
def Returns (m : ExceptT ε (StateM σ) α) (s : σ) : Prop := ∃ a t, m s = (.ok a, t)

theorem bind_eq_ok {m : ExceptT ε (StateM σ) α} {f : α → ExceptT ε (StateM σ) β} {s u : σ} {b : β} :
    (m >>= f) s = (.ok b, u) ↔ ∃ a t, m s = (.ok a, t) ∧ f a t = (.ok b, u) := by
  constructor
  · intro run
    rcases first : m s with ⟨_ | a, t⟩
    · rw [bind_of_error first] at run
      cases run
    · rw [bind_of_ok first] at run
      exact ⟨a, t, rfl, run⟩
  · rintro ⟨a, t, first, run⟩
    exact (bind_of_ok first).trans run

/-- A run of two steps gives an answer if both of them do. -/
theorem returns_bind {m : ExceptT ε (StateM σ) α} {f : α → ExceptT ε (StateM σ) β} {s : σ} :
    Returns (m >>= f) s ↔ ∃ a t, m s = (.ok a, t) ∧ Returns (f a) t := by
  constructor
  · rintro ⟨b, u, run⟩
    obtain ⟨a, t, first, second⟩ := bind_eq_ok.1 run
    exact ⟨a, t, first, b, u, second⟩
  · rintro ⟨a, t, first, b, u, second⟩
    exact ⟨b, u, bind_eq_ok.2 ⟨a, t, first, second⟩⟩

theorem returns_bind_of_ok {m : ExceptT ε (StateM σ) α} {f : α → ExceptT ε (StateM σ) β}
    {s t : σ} {a : α} (first : m s = (.ok a, t)) : Returns (m >>= f) s ↔ Returns (f a) t := by
  rw [Returns, Returns, bind_of_ok first]

theorem returns_pure (a : α) (s : σ) : Returns (pure a : ExceptT ε (StateM σ) α) s :=
  ⟨a, s, rfl⟩

theorem not_returns_of_error {m : ExceptT ε (StateM σ) α} {s t : σ} {e : ε}
    (failed : m s = (.error e, t)) : ¬ Returns m s := by
  rintro ⟨a, u, run⟩
  rw [failed] at run
  cases run

theorem returns_iff {m : ExceptT ε (StateM σ) α} {s : σ} :
    Returns m s ↔ ∀ e, (m s).1 ≠ .error e := by
  rcases run : m s with ⟨e | a, t⟩
  · exact iff_of_false (not_returns_of_error run) fun never => never e rfl
  · refine iff_of_true ⟨a, t, run⟩ fun e failed => ?_
    cases failed

theorem eq_ok_of_toOption {r : Except ε α} {a : α} (given : r.toOption = some a) : r = .ok a := by
  cases r with
  | error e => cases given
  | ok b => rw [Option.some.inj given]

end Arabize
