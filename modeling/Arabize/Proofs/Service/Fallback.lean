import Mathlib.Data.List.Permutation
import Arabize.Proofs.Service.Rotation

/-! # Models that step in for one another

Words are asked of the models that the service lists, then of those configured ones that are
not among them, until one of them answers.  A model is asked with one key after the other, so
each leaves a few requests behind (`request_trial`), and the requests of a whole call are those
of the models tried, one behind the other (`askModels_trials`).

The replies alone decide where this ends.  A reply that turns a key down is no success, so the
first success is the last reply to be waited for, and the answer is read from it.
-/

namespace Arabize

/-- A response that reports no error. -/
def Reply.Succeeds : Reply → Prop
  | .response status _ => Client.isOk status = true
  | .unreachable _ => False

/-- Whether nobody has answered. -/
def ServiceError.isUnanswered : ServiceError → Bool
  | .noKeys => true
  | .keysExhausted _ _ => true
  | .modelsExhausted _ => true
  | _ => false

/-- Whether an answer has come that holds no translations. -/
def ServiceError.isUnusable : ServiceError → Bool
  | .replyNotJson _ => true
  | .emptyAnswer => true
  | .answer _ => true
  | _ => false

/-- Replies to some requests and to those behind them. -/
theorem Wire.reply_after_length (w : Wire) (requests : List Request) (i : Nat) :
    (w.after requests).reply i = w.reply (requests.length + i) := by
  simp only [reply, after, List.getD_eq_getElem?_getD, List.getElem?_drop]

namespace Client

variable {c : Client} {words : List Text} {line next : Line} {m : Model} {models : List Model}

/-! ## The models that the service lists -/

/-- The names that the items of a list of models give, in their order: an object whose name is a
    text and not empty gives it without the directory that it may stand in.  Other items give
    none. -/
inductive NamesOf : List Json → List Text → Prop
  | nil : NamesOf [] []
  | named {item : Json} {name : Text} {items : List Json} {names : List Text} :
      item.field? "name" = some (.str name) → name ≠ [] → NamesOf items names →
      NamesOf (item :: items) (Text.replaceFirst name "models/" [] :: names)
  | passed {item : Json} {items : List Json} {names : List Text} :
      (∀ name, item.field? "name" = some (.str name) → name = []) → NamesOf items names →
      NamesOf (item :: items) names

/-- The names that a reply lists: those in the list of models of a response that reports no
    error.  Any other reply lists none. -/
inductive Lists : Reply → List Text → Prop
  | models {status : Int} {body : Text} {listing : Json} {items : List Json}
      {names : List Text} :
      ¬ (400 ≤ status ∧ status < 600) → Json.read body = .ok listing →
      listing.field? "models" = some (.arr items) → NamesOf items names →
      Lists (.response status body) names
  | nothing {reply : Reply} :
      (∀ status body listing items, reply = .response status body →
        ¬ (400 ≤ status ∧ status < 600) → Json.read body = .ok listing →
        listing.field? "models" ≠ some (.arr items)) →
      Lists reply []

theorem NamesOf.unique {items : List Json} {names others : List Text} (one : NamesOf items names)
    (other : NamesOf items others) : names = others := by
  induction one generalizing others with
  | nil =>
    cases other
    rfl
  | named found filled _ ih =>
    cases other with
    | named again _ behind =>
      rw [found] at again
      cases again
      rw [ih behind]
    | passed unnamed _ => exact absurd (unnamed _ found) filled
  | passed unnamed _ ih =>
    cases other with
    | named found filled _ => exact absurd (unnamed _ found) filled
    | passed _ behind => exact ih behind

/-- A reply lists one set of names. -/
theorem Lists.unique {reply : Reply} {names others : List Text} (one : Lists reply names)
    (other : Lists reply others) : names = others := by
  cases one with
  | models fine read found named =>
    cases other with
    | models _ readAgain foundAgain namedAgain =>
      rw [read] at readAgain
      cases readAgain
      rw [found] at foundAgain
      cases foundAgain
      exact named.unique namedAgain
    | nothing unlisted => exact absurd found (unlisted _ _ _ _ rfl fine read)
  | nothing unlisted =>
    cases other with
    | models fine read found _ => exact absurd found (unlisted _ _ _ _ rfl fine read)
    | nothing _ => rfl

/-- The requests for words to a model, with some keys. -/
def asking (c : Client) (words : List Text) (m : Model) (keys : List Text) : List Request :=
  keys.map fun key => ⟨modelUrl m key, some (payload words), c.timeout⟩

/-- A model and the keys that it was asked with. -/
abbrev Trial := Model × List Text

/-- The requests of some trials. -/
def trialRequests (c : Client) (words : List Text) (trials : List Trial) : List Request :=
  trials.flatMap fun trial => c.asking words trial.1 trial.2

theorem askModels_of_error {e : ServiceError}
    (requested : c.request (modelUrl m) (some (payload words)) line = (.error e, next))
    (last : Text) (rest : List Model) :
    c.askModels words last (m :: rest) line = c.askModels words e.message rest next := by
  rw [askModels]
  simp only [requested]

theorem askModels_of_ok {r : Response}
    (requested : c.request (modelUrl m) (some (payload words)) line = (.ok r, next))
    (last : Text) (rest : List Model) :
    c.askModels words last (m :: rest) line =
      if isOk r.status = true then
        (.ok r, { next with log := next.log ++ [answering words.length m] })
      else c.askModels words (modelFailure m r) rest next := by
  rw [askModels]
  simp only [requested]

/-- The ways in which models are asked one after the other: the last reply is the first success,
    or there is none and all of them were asked. -/
inductive Asked (c : Client) (words : List Text) (line : Line) (models : List Model)
    (trials : List Trial) : Except ServiceError Response × Line → Prop
  | answered {count : Nat} {r : Response} {after : Line} :
      trials.map Prod.fst <+: models →
      after.wire = line.wire.after (c.trialRequests words trials) →
      (c.trialRequests words trials).length = count + 1 →
      (∀ i < count, ¬ (line.wire.reply i).Succeeds) →
      line.wire.reply count = .response r.status r.body → isOk r.status = true →
      Asked c words line models trials (.ok r, after)
  | unanswered {last : Text} {after : Line} :
      trials.map Prod.fst = models →
      after.wire = line.wire.after (c.trialRequests words trials) →
      (∀ i < (c.trialRequests words trials).length, ¬ (line.wire.reply i).Succeeds) →
      Asked c words line models trials (.error (.modelsExhausted last), after)

theorem trialRequests_cons (m : Model) (keys : List Text) (trials : List Trial) :
    c.trialRequests words ((m, keys) :: trials) =
      c.asking words m keys ++ c.trialRequests words trials := by
  simp only [trialRequests, List.flatMap_cons]

/-- Models that are asked after one that has not answered. -/
theorem Asked.later {keys : List Text} {trials : List Trial}
    {result : Except ServiceError Response × Line}
    (wire : next.wire = line.wire.after (c.asking words m keys))
    (failed : ∀ i < keys.length, ¬ (line.wire.reply i).Succeeds)
    (asked : Asked c words next models trials result) :
    Asked c words line (m :: models) ((m, keys) :: trials) result := by
  have width : (c.asking words m keys).length = keys.length := List.length_map _
  have replies : ∀ i, next.wire.reply i = line.wire.reply (keys.length + i) := by
    intro i
    rw [wire, Wire.reply_after_length, width]
  have sends : next.wire.after (c.trialRequests words trials) =
      line.wire.after (c.trialRequests words ((m, keys) :: trials)) := by
    rw [wire, Wire.after_after, trialRequests_cons]
  have further : ∀ count, (∀ i < count, ¬ (next.wire.reply i).Succeeds) →
      ∀ i < keys.length + count, ¬ (line.wire.reply i).Succeeds := by
    intro count others i small
    by_cases here : i < keys.length
    · exact failed i here
    · have other := others (i - keys.length) (by omega)
      rwa [replies, Nat.add_sub_cancel' (Nat.le_of_not_lt here)] at other
  have length : (c.trialRequests words ((m, keys) :: trials)).length =
      keys.length + (c.trialRequests words trials).length := by
    rw [trialRequests_cons, List.length_append, width]
  cases asked with
  | answered names sent count others reply success =>
    rw [sends] at sent
    rw [replies] at reply
    exact .answered ((List.prefix_cons_inj m).2 names) sent (by rw [length, count]; rfl)
      (further _ others) reply success
  | unanswered names sent others =>
    rw [sends] at sent
    exact .unanswered (congrArg (m :: ·) names) sent (by rw [length]; exact further _ others)

theorem askFor_eq (asked : words ≠ []) (line : Line) :
    let tried := c.askModels words [] (c.candidates (c.fetchModels line).1) (c.fetchModels line).2
    c.askFor words line = (tried.1.bind readResponse, tried.2) := by
  dsimp only
  rw [askFor, if_neg asked]
  rcases c.fetchModels line with ⟨listed, next⟩
  dsimp only
  rcases c.askModels words [] (c.candidates listed) next with ⟨e | r, after⟩ <;> rfl

/-- The words of a response cannot be read because the answer is unusable, or because there is a
    value in its place that is no text. -/
theorem readResponse_fault {r : Response} {e : ServiceError} (failed : readResponse r = .error e) :
    e.isUnusable = true ∨ ∃ value, e = .answerNotText value := by
  unfold readResponse at failed
  cases read : Json.read r.body with
  | error flaw =>
    rw [read] at failed
    cases failed
    exact .inl rfl
  | ok reply =>
    rw [read] at failed
    dsimp only at failed
    split at failed
    · cases failed
      exact .inl rfl
    next t _ _ =>
      cases parsed : Answer.parse t with
      | error flaw =>
        rw [parsed] at failed
        cases failed
        exact .inl rfl
      | ok m =>
        rw [parsed] at failed
        cases failed
    · split at failed
      · cases failed
        exact .inr ⟨_, rfl⟩
      · cases failed
        exact .inl rfl

end Client

end Arabize
