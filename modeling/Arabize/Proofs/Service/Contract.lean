import Arabize.Proofs.Lexicon.Stored
import Arabize.Proofs.Service.Fallback

/-! # What a call for words comes to

Whoever asks for words is told of two ways to fail: nobody has answered, or the answer holds no
translations.  Else there are words, each under a key of its own and none of them blank
(`parse_words`), whatever shape the answer has.

There is a third way.  A reply may hold any value where its text belongs, and one that counts as
present but is no text is taken for the text of an answer.  `askFor_outcomes` says that this value
is the only cause of such a failure.
-/

namespace Arabize

namespace Answer

variable {raw t : Text} {j : Json} {m : Lexicon}

/-! ## Answers -/

theorem read_of_readIfWellFormed (found : readIfWellFormed t = .ok (some j)) :
    Json.read t = .ok j := by
  unfold readIfWellFormed at found
  split at found
  next read =>
    cases found
    exact read
  · cases found
  · cases found

theorem read_of_readBlock (found : readBlock t = .ok (some j)) : ∃ u, Json.read u = .ok j := by
  unfold readBlock at found
  split at found
  · exact ⟨_, read_of_readIfWellFormed found⟩
  · cases found

theorem read_of_readUnfenced (found : readUnfenced raw = .ok (some j)) :
    ∃ t, Json.read t = .ok j := by
  unfold readUnfenced at found
  cases read : readIfWellFormed (withoutFences raw) with
  | error e =>
    rw [read] at found
    cases found
  | ok value =>
    rw [read] at found
    cases value with
    | none => exact read_of_readBlock found
    | some k =>
      cases found
      exact ⟨_, read_of_readIfWellFormed read⟩

/-- Wherever it was found in an answer, a value was read. -/
theorem read_of_value? (found : value? raw = .ok (some j)) : ∃ t, Json.read t = .ok j := by
  unfold value? at found
  cases read : readIfWellFormed raw with
  | error e =>
    rw [read] at found
    cases found
  | ok value =>
    rw [read] at found
    cases value with
    | none => exact read_of_readUnfenced found
    | some k =>
      cases k with
      | null => exact read_of_readUnfenced found
      | _ =>
        cases found
        exact ⟨_, read_of_readIfWellFormed read⟩

theorem nodup_keys_flatten (read : Json.read t = .ok j) : (Mapping.keys (flatten j)).Nodup := by
  cases j with
  | obj fields => exact Json.read_regular read _ List.mem_cons_self nofun
  | arr items =>
    -- The items are laid over one another, from the first one on.
    have step : ∀ m : Mapping Json, (Mapping.keys m).Nodup →
        (Mapping.keys (items.foldl (fun m item =>
          Mapping.update m ((item.fields?.map itemPairs).getD [])) m)).Nodup := by
      intro m nodup
      clear read
      induction items generalizing m with
      | nil => exact nodup
      | cons item rest ih => exact ih _ (Mapping.nodup_keys_update nodup _)
    exact step [] .nil
  | null | bool | int | float | str => exact .nil

theorem nodup_keys_kept {fields : Mapping Json} (nodup : (Mapping.keys fields).Nodup) :
    (Mapping.keys (kept fields)).Nodup :=
  (nodup.sublist (Json.keys_textFields_sublist fields)).sublist
    (List.filter_sublist.map Prod.fst)

/-- The words of an answer have different keys, and none of them is blank. -/
theorem parse_words (parsed : parse raw = .ok m) :
    (Mapping.keys m).Nodup ∧ ∀ kv ∈ m, Text.isBlank kv.2 = false := by
  unfold parse at parsed
  cases found : value? raw with
  | error e =>
    rw [found] at parsed
    cases parsed
  | ok value =>
    rw [found] at parsed
    cases value with
    | none => cases parsed
    | some j =>
      change (if isAnswer j = true then Except.ok (kept (flatten j)) else _) = _ at parsed
      split at parsed
      · cases parsed
        obtain ⟨t, read⟩ := read_of_value? found
        refine ⟨nodup_keys_kept (nodup_keys_flatten read), fun kv member => ?_⟩
        simpa using (List.mem_filter.1 member).2
      · cases parsed

end Answer

namespace Client

variable {c : Client} {words : List Text} {line : Line} {r : Response}

/-! ## Responses -/

/-- A response that holds a value, and no text, where the text of an answer belongs. -/
def Response.HoldsNoText (r : Response) (value : Json) : Prop :=
  ∃ reply, Json.read r.body = .ok reply ∧ Answer.textOfReply reply = value ∧
    value.isTruthy = true ∧ value.text? = none

theorem answerNotText_iff {value : Json} :
    readResponse r = .error (.answerNotText value) ↔ r.HoldsNoText value := by
  unfold readResponse Response.HoldsNoText
  cases read : Json.read r.body with
  | error e => simp
  | ok reply =>
    simp only [Except.ok.injEq, exists_eq_left']
    cases Answer.textOfReply reply with
    | str t =>
      refine iff_of_false ?_ ?_
      · cases t with
        | nil => exact nofun
        | cons c t =>
          dsimp only
          cases Answer.parse (c :: t) <;> exact nofun
      · rintro ⟨rfl, _, text⟩
        cases text
    | _ =>
      dsimp only
      split
      next present =>
        constructor
        · rintro ⟨⟩
          exact ⟨rfl, present, rfl⟩
        · rintro ⟨rfl, _⟩
          rfl
      next absent =>
        refine iff_of_false nofun ?_
        rintro ⟨rfl, present, _⟩
        exact absent present

/-- The words of a response have different keys, and none of them is blank. -/
theorem readResponse_words {m : Lexicon} (read : readResponse r = .ok m) :
    (Mapping.keys m).Nodup ∧ ∀ kv ∈ m, Text.isBlank kv.2 = false := by
  unfold readResponse at read
  split at read
  · cases read
  · split at read
    · cases read
    next t _ _ =>
      cases parsed : Answer.parse t with
      | error e =>
        rw [parsed] at read
        cases read
      | ok words =>
        rw [parsed] at read
        cases read
        exact Answer.parse_words parsed
    · split at read <;> cases read

/-! ## Calls -/

/-- Models that were asked in vain leave nothing but that. -/
theorem isUnanswered_askModels {models : List Model} {last : Text} {e : ServiceError}
    (failed : (c.askModels words last models line).1 = .error e) : e.isUnanswered = true := by
  induction models generalizing line last with
  | nil =>
    cases failed
    rfl
  | cons m rest ih =>
    rcases requested : c.request (modelUrl m) (some (payload words)) line with ⟨f | r, next⟩
    · rw [askModels_of_error requested] at failed
      exact ih failed
    · rw [askModels_of_ok requested] at failed
      split at failed
      · cases failed
      · exact ih failed

/-- The response that is read for words, if there is one. -/
def response (c : Client) (words : List Text) (line : Line) : Except ServiceError Response :=
  (c.askModels words [] (c.candidates (c.fetchModels line).1) (c.fetchModels line).2).1

theorem askFor_result (asked : words ≠ []) (line : Line) :
    (c.askFor words line).1 = (c.response words line).bind readResponse :=
  congrArg Prod.fst (askFor_eq asked line)

/-- A call for words gives words, each under its own key and none of them blank, or says that
    nobody has answered, or that the answer holds no words, whatever the replies are; but for
    one case.  It fails by a value that is no text exactly if the response holds such a value
    where the text of an answer belongs, and the value counts as present. -/
theorem askFor_outcomes (c : Client) (words : List Text) (line : Line) :
    (∀ m, (c.askFor words line).1 = .ok m →
      (Mapping.keys m).Nodup ∧ ∀ kv ∈ m, Text.isBlank kv.2 = false) ∧
    (∀ e, (c.askFor words line).1 = .error e →
      e.isUnanswered = true ∨ e.isUnusable = true ∨ ∃ value, e = .answerNotText value) ∧
    ∀ value, (c.askFor words line).1 = .error (.answerNotText value) ↔
      words ≠ [] ∧ ∃ r, c.response words line = .ok r ∧ r.HoldsNoText value := by
  by_cases asked : words = []
  · subst asked
    have nothing : (c.askFor [] line).1 = .ok [] := rfl
    rw [nothing]
    refine ⟨?_, nofun, fun value => iff_of_false nofun (fun ⟨filled, _⟩ => filled rfl)⟩
    rintro m ⟨⟩
    exact ⟨.nil, nofun⟩
  rw [askFor_result asked]
  -- Either no model has responded, or all hangs on what is read from the response.
  cases responded : c.response words line with
  | error e =>
    have unanswered : e.isUnanswered = true := isUnanswered_askModels responded
    refine ⟨nofun, ?_, fun value => iff_of_false ?_ ?_⟩
    · rintro f ⟨⟩
      exact .inl unanswered
    · rintro ⟨⟩
      cases unanswered
    · rintro ⟨_, r, same, _⟩
      cases same
  | ok r =>
    refine ⟨fun m read => readResponse_words read,
      fun e failed => .inr (readResponse_fault failed), fun value => ?_⟩
    change readResponse r = .error (.answerNotText value) ↔ _
    rw [answerNotText_iff]
    refine ⟨fun holds => ⟨asked, r, rfl, holds⟩, ?_⟩
    rintro ⟨_, s, same, holds⟩
    cases same
    exact holds

end Client

end Arabize
