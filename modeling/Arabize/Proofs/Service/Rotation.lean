import Mathlib.Data.List.Nodup
import Mathlib.Data.Nat.ModEq
import Arabize.Service.Client

/-! # One pass over the keys

A request is tried with the key in use and with those after it, round the ring and each at most
once, until a reply comes that does not turn the key down.  `Pass` lists the two ways in which
such a call ends; which of them it is depends on the replies alone.

The ring outlives its calls.  Whatever a client does, it does by attempts with one key each
(`Evolves`), and no attempt leads out of the ring, so every call starts at the place of a key.
-/

namespace Arabize

/-! ## Rings -/

namespace KeyRing

variable {r : KeyRing}

/-- The place in use is that of a key. -/
def InRange (r : KeyRing) : Prop := 0 ≤ r.index ∧ r.index < r.size

/-- The place so many keys after the one in use. -/
def placeAfter (r : KeyRing) (i : Nat) : Nat := (r.index.toNat + i) % r.size

/-- The key so many keys after the one in use. -/
def keyAfter (r : KeyRing) (i : Nat) : Text := r.keys.getD (r.placeAfter i) []

theorem inRange_ofKeys {keys : List Text} (keyed : (ofKeys keys).keys ≠ []) :
    (ofKeys keys).InRange := by
  have filled : 0 < (ofKeys keys).size := List.length_pos_iff.2 keyed
  exact ⟨Int.le_refl 0, Int.natCast_pos.2 filled⟩

theorem InRange.size_pos (inRange : r.InRange) : 0 < r.size := by
  obtain ⟨low, high⟩ := inRange
  omega

theorem InRange.keys_ne_nil (inRange : r.InRange) : r.keys ≠ [] :=
  List.length_pos_iff.1 inRange.size_pos

theorem InRange.settle (inRange : r.InRange) : r.settle = r := by
  rw [KeyRing.settle, if_neg inRange.keys_ne_nil, if_neg (by have := inRange.2; omega)]

theorem InRange.placeAfter_zero (inRange : r.InRange) : (r.placeAfter 0 : Int) = r.index := by
  obtain ⟨low, high⟩ := inRange
  have place : r.placeAfter 0 = r.index.toNat := Nat.mod_eq_of_lt (by omega)
  omega

theorem InRange.current? (inRange : r.InRange) : r.current? = some (r.keyAfter 0) := by
  have place : r.index.toNat = r.placeAfter 0 := by
    have := inRange.placeAfter_zero
    omega
  have inside : r.placeAfter 0 < r.keys.length := Nat.mod_lt _ inRange.size_pos
  simp only [KeyRing.current?, inRange.settle]
  rw [if_pos inRange.1, place, keyAfter, List.getD_eq_getElem?_getD,
    List.getElem?_eq_getElem inside]
  rfl

theorem InRange.rotate_eq (inRange : r.InRange) :
    r.rotate = { r with index := (r.placeAfter 1 : Nat) } := by
  obtain ⟨low, high⟩ := inRange
  rw [rotate, if_neg (InRange.keys_ne_nil ⟨low, high⟩)]
  congr 1
  rw [placeAfter, Int.natCast_emod, Int.natCast_add, Int.toNat_of_nonneg low]
  rfl

/-- To turn a ring does not lead out of it. -/
theorem InRange.rotate (inRange : r.InRange) : r.rotate.InRange := by
  have inside : r.placeAfter 1 < r.size := Nat.mod_lt _ inRange.size_pos
  rw [inRange.rotate_eq]
  exact ⟨Int.natCast_nonneg _, Int.ofNat_lt.2 inside⟩

theorem InRange.placeAfter_rotate (inRange : r.InRange) (i : Nat) :
    r.rotate.placeAfter i = r.placeAfter (i + 1) := by
  rw [inRange.rotate_eq]
  simp only [placeAfter, size, Int.toNat_natCast, Nat.mod_add_mod]
  rw [Nat.add_assoc, Nat.add_comm 1]

theorem InRange.keyAfter_rotate (inRange : r.InRange) (i : Nat) :
    r.rotate.keyAfter i = r.keyAfter (i + 1) := by
  rw [keyAfter, inRange.placeAfter_rotate, keyAfter, inRange.rotate_eq]

/-- Once round a ring every key comes once. -/
theorem placeAfter_nodup (r : KeyRing) : ((List.range r.size).map r.placeAfter).Nodup := by
  refine List.Nodup.map_on (fun i low j high same => ?_) List.nodup_range
  rw [List.mem_range] at low high
  -- Two places are the same only if they are a full turn apart.
  have turn : Nat.ModEq r.size i j := Nat.ModEq.add_left_cancel' _ same
  exact turn.eq_of_lt_of_lt low high

end KeyRing

/-! ## Replies -/

/-- The replies after which the next key is tried: none at all, or one that turns the key down. -/
inductive Reply.TurnsDown : Reply → Prop
  | unreachable (why : Text) : TurnsDown (.unreachable why)
  /-- The key was used too often. -/
  | rateLimit (body : Text) : TurnsDown (.response 429 body)
  | unauthorized (body : Text) : TurnsDown (.response 401 body)
  | forbidden (body : Text) : TurnsDown (.response 403 body)
  /-- A bad request whose text complains of the key. -/
  | badKey {complaint body : Text} : complaint ∈ KeyRing.complaints →
      Text.occursIn complaint (Text.lower body) = true → TurnsDown (.response 400 body)

theorem turnsDown_response_iff (status : Int) (body : Text) :
    Reply.TurnsDown (.response status body) ↔
      (!Client.isOk status && KeyRing.asksForRotation status body) = true := by
  simp only [Client.isOk, Bool.not_not, KeyRing.asksForRotation, KeyRing.refusesKey,
    Bool.and_eq_true, Bool.or_eq_true, beq_iff_eq, List.any_eq_true]
  constructor
  · rintro (_ | _ | _ | _ | ⟨listed, occurs⟩)
    · exact ⟨by decide, .inl rfl⟩
    · exact ⟨by decide, .inr (.inl (.inl rfl))⟩
    · exact ⟨by decide, .inr (.inl (.inr rfl))⟩
    · exact ⟨by decide, .inr (.inr ⟨rfl, _, listed, occurs⟩)⟩
  · rintro ⟨_, rfl | (rfl | rfl) | ⟨rfl, complaint, listed, occurs⟩⟩
    · exact .rateLimit body
    · exact .unauthorized body
    · exact .forbidden body
    · exact .badKey listed occurs

namespace Wire

/-- The reply to the request that comes after so many others. -/
def reply (w : Wire) (i : Nat) : Reply := w.replies.getD i w.otherwise

/-- A wire over which some requests were sent. -/
def after (w : Wire) (requests : List Request) : Wire :=
  ⟨w.replies.drop requests.length, w.otherwise, w.sent ++ requests⟩

theorem send_eq (w : Wire) (r : Request) : w.send r = (w.reply 0, w.after [r]) := by
  obtain ⟨_ | ⟨first, rest⟩, otherwise, sent⟩ := w <;> rfl

theorem after_nil (w : Wire) : w.after [] = w := by
  simp only [after, List.length_nil, List.drop_zero, List.append_nil]

theorem after_after (w : Wire) (requests more : List Request) :
    (w.after requests).after more = w.after (requests ++ more) := by
  simp only [after, List.drop_drop, List.append_assoc, List.length_append]

theorem reply_after (w : Wire) (r : Request) (i : Nat) :
    (w.after [r]).reply i = w.reply (i + 1) := by
  simp only [reply, after, List.getD_eq_getElem?_getD, List.getElem?_drop, List.length_singleton,
    Nat.add_comm 1]

end Wire

namespace Client

variable {c : Client} {url : Text → Text} {payload : Option Json} {line start : Line}

/-! ## One attempt -/

/-- The request with the key so many keys after the one in use. -/
def requestWith (c : Client) (url : Text → Text) (payload : Option Json) (line : Line) (i : Nat) :
    Request :=
  ⟨url (line.ring.keyAfter i), payload, c.timeout⟩

/-- The requests with so many keys, from the one in use on. -/
def requests (c : Client) (url : Text → Text) (payload : Option Json) (line : Line) (count : Nat) :
    List Request :=
  (List.range count).map (c.requestWith url payload line)

theorem attempt_of_turnsDown (c : Client) (url : Text → Text) (payload : Option Json)
    (inRange : line.ring.InRange) (down : (line.wire.reply 0).TurnsDown) :
    ∃ why after, c.attempt url payload line = (.error why, after) ∧
      after.ring = line.ring.rotate ∧
      after.wire = line.wire.after [c.requestWith url payload line 0] := by
  simp only [attempt, inRange.settle, inRange.current?, Option.getD_some, Wire.send_eq]
  cases reply : line.wire.reply 0 with
  | unreachable why => exact ⟨_, _, rfl, rfl, rfl⟩
  | response status body =>
    rw [reply, turnsDown_response_iff] at down
    dsimp only
    rw [if_pos down]
    exact ⟨_, _, rfl, rfl, rfl⟩

theorem attempt_of_not_turnsDown (c : Client) (url : Text → Text) (payload : Option Json)
    (inRange : line.ring.InRange) (kept : ¬ (line.wire.reply 0).TurnsDown) :
    ∃ r after, c.attempt url payload line = (.ok r, after) ∧
      line.wire.reply 0 = .response r.status r.body ∧ after.ring = line.ring ∧
      after.wire = line.wire.after [c.requestWith url payload line 0] := by
  simp only [attempt, inRange.settle, inRange.current?, Option.getD_some, Wire.send_eq]
  cases reply : line.wire.reply 0 with
  | unreachable why =>
    rw [reply] at kept
    exact absurd (.unreachable why) kept
  | response status body =>
    rw [reply, turnsDown_response_iff] at kept
    dsimp only
    rw [if_neg kept]
    exact ⟨⟨status, body⟩, _, rfl, rfl, rfl, rfl⟩

/-! ## One call -/

/-- The ways in which a call ends that may try so many keys: with the first reply that does not
    turn its key down, and this key stays in use; or after all of them were turned down. -/
inductive Pass (c : Client) (url : Text → Text) (payload : Option Json) (line : Line)
    (keys : Nat) : Except ServiceError Response × Line → Prop
  | answered {turned : Nat} {r : Response} {after : Line} :
      turned < keys →
      (∀ i < turned, (line.wire.reply i).TurnsDown) →
      line.wire.reply turned = .response r.status r.body →
      ¬ (line.wire.reply turned).TurnsDown →
      after.wire = line.wire.after (c.requests url payload line (turned + 1)) →
      after.ring = { line.ring with index := (line.ring.placeAfter turned : Nat) } →
      Pass c url payload line keys (.ok r, after)
  | exhausted {last : Text} {after : Line} :
      (∀ i < keys, (line.wire.reply i).TurnsDown) →
      after.wire = line.wire.after (c.requests url payload line keys) →
      after.ring = { line.ring with index := (line.ring.placeAfter keys : Nat) } →
      Pass c url payload line keys (.error (.keysExhausted line.ring.size last), after)

/-- A call whose first key is turned down goes on as one that starts with the next key. -/
theorem Pass.turn {next : Line} {keys : Nat} {result : Except ServiceError Response × Line}
    (inRange : line.ring.InRange) (down : (line.wire.reply 0).TurnsDown)
    (ring : next.ring = line.ring.rotate)
    (wire : next.wire = line.wire.after [c.requestWith url payload line 0])
    (pass : Pass c url payload next keys result) :
    Pass c url payload line (keys + 1) result := by
  -- The replies, the requests and the places in the ring are those of the first call, one later.
  have replies : ∀ i, next.wire.reply i = line.wire.reply (i + 1) := by
    intro i
    rw [wire, Wire.reply_after]
  have further : ∀ i < keys + 1, (∀ j < i, (next.wire.reply j).TurnsDown) →
      ∀ j < i + 1, (line.wire.reply j).TurnsDown := by
    rintro i _ downs (_ | j) small
    · exact down
    · rw [← replies]
      exact downs j (Nat.lt_of_succ_lt_succ small)
  have sends : ∀ count, next.wire.after (c.requests url payload next count) =
      line.wire.after (c.requests url payload line (count + 1)) := by
    intro count
    have shifted : c.requestWith url payload next = c.requestWith url payload line ∘ Nat.succ := by
      funext i
      simp only [requestWith, ring, inRange.keyAfter_rotate, Function.comp]
    rw [wire, Wire.after_after, requests, requests, List.range_succ_eq_map, List.map_cons,
      List.map_map, shifted]
    rfl
  have turns : ∀ i, ({ next.ring with index := (next.ring.placeAfter i : Nat) } : KeyRing) =
      { line.ring with index := (line.ring.placeAfter (i + 1) : Nat) } := by
    intro i
    rw [ring, inRange.placeAfter_rotate, inRange.rotate_eq]
  cases pass with
  | answered small downs reply kept sent place =>
    rw [replies] at reply kept
    rw [sends] at sent
    rw [turns] at place
    exact .answered (Nat.succ_lt_succ small) (further _ (by omega) downs) reply kept sent place
  | exhausted downs sent place =>
    rw [sends] at sent
    rw [turns] at place
    rw [ring, inRange.rotate_eq]
    exact .exhausted (further _ (by omega) downs) sent place

theorem tryKeys_of_ok {r : Response} {next : Line}
    (attempted : c.attempt url payload line = (.ok r, next)) (left : Nat) (last : Text) :
    c.tryKeys url payload (left + 1) last line = (.ok r, next) := by
  simp only [tryKeys, attempted]

theorem tryKeys_of_error {why : Text} {next : Line}
    (attempted : c.attempt url payload line = (.error why, next)) (left : Nat) (last : Text) :
    c.tryKeys url payload (left + 1) last line = c.tryKeys url payload left why next := by
  simp only [tryKeys, attempted]

theorem tryKeys_pass (inRange : line.ring.InRange) (left : Nat) (last : Text) :
    Pass c url payload line left (c.tryKeys url payload left last line) := by
  induction left generalizing line last with
  | zero =>
    refine .exhausted (fun i small => absurd small (Nat.not_lt_zero i)) ?_ ?_
    · exact (Wire.after_nil _).symm
    · rw [inRange.placeAfter_zero]
  | succ left ih =>
    by_cases down : (line.wire.reply 0).TurnsDown
    · obtain ⟨why, next, attempted, ring, wire⟩ := attempt_of_turnsDown c url payload inRange down
      have turned : next.ring.InRange := by
        rw [ring]
        exact inRange.rotate
      rw [tryKeys_of_error attempted]
      exact (ih turned why).turn inRange down ring wire
    · obtain ⟨r, next, attempted, reply, ring, wire⟩ :=
        attempt_of_not_turnsDown c url payload inRange down
      rw [tryKeys_of_ok attempted]
      refine .answered (Nat.succ_pos left) (fun i small => absurd small (Nat.not_lt_zero i)) reply
        down wire ?_
      rw [ring, inRange.placeAfter_zero]

theorem request_pass (inRange : line.ring.InRange) :
    Pass c url payload line line.ring.size (c.request url payload line) := by
  rw [request, if_neg inRange.keys_ne_nil]
  exact tryKeys_pass inRange _ _

/-- A call fails exactly if all keys are turned down. -/
theorem Pass.error_iff {keys : Nat} {result : Except ServiceError Response × Line}
    (pass : Pass c url payload line keys result) :
    (∃ e, result.1 = .error e) ↔ ∀ i < keys, (line.wire.reply i).TurnsDown := by
  cases pass with
  | answered small _ _ kept =>
    refine iff_of_false ?_ fun downs => kept (downs _ small)
    rintro ⟨e, failed⟩
    cases failed
  | exhausted downs => exact iff_of_true ⟨_, rfl⟩ downs

/-! ## Any number of calls -/

/-- What becomes of a line by attempts with one key each, and by reports. -/
inductive Evolves (c : Client) (start : Line) : Line → Prop
  | start : Evolves c start start
  | attempt {line : Line} (url : Text → Text) (payload : Option Json) :
      Evolves c start line → Evolves c start (c.attempt url payload line).2
  | report {line : Line} (entries : Log) :
      Evolves c start line → Evolves c start { line with log := line.log ++ entries }

theorem attempt_ring (c : Client) (url : Text → Text) (payload : Option Json)
    (inRange : line.ring.InRange) :
    (c.attempt url payload line).2.ring.InRange ∧
      (c.attempt url payload line).2.ring.keys = line.ring.keys := by
  by_cases down : (line.wire.reply 0).TurnsDown
  · obtain ⟨why, next, attempted, ring, _⟩ := attempt_of_turnsDown c url payload inRange down
    rw [attempted, ring]
    exact ⟨inRange.rotate, by rw [inRange.rotate_eq]⟩
  · obtain ⟨r, next, attempted, _, ring, _⟩ := attempt_of_not_turnsDown c url payload inRange down
    rw [attempted, ring]
    exact ⟨inRange, rfl⟩

theorem Evolves.ring (inRange : start.ring.InRange) (evolves : Evolves c start line) :
    line.ring.InRange ∧ line.ring.keys = start.ring.keys := by
  induction evolves with
  | start => exact ⟨inRange, rfl⟩
  | attempt url payload _ ih =>
    obtain ⟨inside, same⟩ := attempt_ring c url payload ih.1
    exact ⟨inside, same.trans ih.2⟩
  | report entries _ ih => exact ih

theorem tryKeys_evolves (evolves : Evolves c start line) (left : Nat) (last : Text) :
    Evolves c start (c.tryKeys url payload left last line).2 := by
  induction left generalizing line last with
  | zero => exact evolves
  | succ left ih =>
    have further := evolves.attempt url payload
    rcases attempted : c.attempt url payload line with ⟨why | r, next⟩
    · rw [attempted] at further
      rw [tryKeys_of_error attempted]
      exact ih further why
    · rw [attempted] at further
      rw [tryKeys_of_ok attempted]
      exact further

theorem request_evolves (url : Text → Text) (payload : Option Json)
    (evolves : Evolves c start line) :
    Evolves c start (c.request url payload line).2 := by
  unfold request
  split
  · exact evolves
  · exact tryKeys_evolves evolves _ _

theorem fetchModels_evolves (evolves : Evolves c start line) :
    Evolves c start (c.fetchModels line).2 := by
  have asked := request_evolves listUrl none evolves
  unfold fetchModels
  rcases requested : c.request listUrl none line with ⟨e | r, next⟩ <;>
  · rw [requested] at asked
    exact asked

theorem askModels_evolves (words : List Text) (models : List Model)
    (evolves : Evolves c start line) (last : Text) :
    Evolves c start (c.askModels words last models line).2 := by
  induction models generalizing line last with
  | nil => exact evolves
  | cons m rest ih =>
    have asked := request_evolves (modelUrl m) (some (Client.payload words)) evolves
    unfold askModels
    rcases requested : c.request (modelUrl m) (some (Client.payload words)) line with ⟨e | r, next⟩
    · rw [requested] at asked
      exact ih asked e.message
    · rw [requested] at asked
      dsimp only
      split
      · exact asked.report _
      · exact ih asked _

theorem askFor_evolves (words : List Text) (evolves : Evolves c start line) :
    Evolves c start (c.askFor words line).2 := by
  unfold askFor
  split
  · exact evolves
  · have listed := fetchModels_evolves evolves
    rcases fetched : c.fetchModels line with ⟨names, next⟩
    rw [fetched] at listed
    have asked := askModels_evolves words (c.candidates names) listed []
    dsimp only
    rcases answered : c.askModels words [] (c.candidates names) next with ⟨e | r, last⟩ <;>
    · rw [answered] at asked
      exact asked

/-- What a client is used for. -/
inductive Operation
  | listModels
  | translateWords (words : List Text)
  | request (url : Text → Text) (payload : Option Json)

/-- The line after an operation, whatever its result. -/
def perform (c : Client) (line : Line) : Operation → Line
  | .listModels => (c.fetchModels line).2
  | .translateWords words => (c.askFor words line).2
  | .request url payload => (c.request url payload line).2

theorem performs_evolves (operations : List Operation) (evolves : Evolves c start line) :
    Evolves c start (operations.foldl c.perform line) := by
  induction operations generalizing line with
  | nil => exact evolves
  | cons operation rest ih =>
    refine ih ?_
    cases operation with
    | listModels => exact fetchModels_evolves evolves
    | translateWords words => exact askFor_evolves words evolves
    | request url payload => exact request_evolves url payload evolves

/-- The keys of a client take turns fairly.  Whatever is asked of a client that has a key, and
    whatever the replies are, the place in use is that of a key after every attempt.  From there
    a call tries the keys in the order of the ring, none twice and each further one only after
    a reply that turned down the one before; it ends with the first other reply, whose key
    stays in use, or fails, and does so exactly if every key was tried and turned down; then the
    place in use is the one that the call started from. -/
theorem rotation_fair (c : Client) {keys : List Text} (filled : (KeyRing.ofKeys keys).keys ≠ [])
    (wire : Wire) (log : Log) (operations : List Operation) :
    let start : Line := ⟨KeyRing.ofKeys keys, wire, log⟩
    let n := (KeyRing.ofKeys keys).size
    Evolves c start (operations.foldl c.perform start) ∧
    ∀ line, Evolves c start line →
      line.ring.keys = (KeyRing.ofKeys keys).keys ∧ 0 ≤ line.ring.index ∧ line.ring.index < n ∧
      ((List.range n).map line.ring.placeAfter).Nodup ∧
      ∀ url payload,
        Pass c url payload line n (c.request url payload line) ∧
        ((∃ e, (c.request url payload line).1 = .error e) ↔
          ∀ i < n, (line.wire.reply i).TurnsDown) ∧
        ((∃ e, (c.request url payload line).1 = .error e) →
          (c.request url payload line).2.ring = line.ring) := by
  intro start n
  refine ⟨performs_evolves operations .start, fun line evolves => ?_⟩
  obtain ⟨inRange, same⟩ := evolves.ring (KeyRing.inRange_ofKeys filled)
  have size : line.ring.size = n := congrArg List.length same
  refine ⟨same, inRange.1, size ▸ inRange.2, size ▸ KeyRing.placeAfter_nodup _,
    fun url payload => ?_⟩
  have pass : Pass c url payload line line.ring.size (c.request url payload line) :=
    request_pass inRange
  rw [size] at pass
  refine ⟨pass, pass.error_iff, ?_⟩
  rintro ⟨e, failed⟩
  generalize c.request url payload line = result at pass failed
  cases pass with
  | answered => cases failed
  | exhausted downs sent place =>
    -- A full turn leads back to where it started.
    have back : line.ring.placeAfter n = line.ring.placeAfter 0 := by
      rw [KeyRing.placeAfter, KeyRing.placeAfter, size, Nat.add_mod_right, Nat.add_zero]
    rw [place, back, inRange.placeAfter_zero]

/-- Two keys: the first one is used too often, and nobody answers when words are asked for. -/
theorem rotation_fair_pair :
    let c : Client := ⟨[(.str "v1", .str "model")], .int 120⟩
    let ring := KeyRing.ofKeys ["one", " ", "two"]
    let start : Line := ⟨ring, ⟨[.response 429 [], .response 200 "{}"], .unreachable "", []⟩, []⟩
    let operations : List Operation := [.listModels, .translateWords ["Home"]]
    ring.keys ≠ [] ∧ ring.size = 2 ∧ (c.perform start .listModels).ring.index = 1 ∧
    Evolves c start (operations.foldl c.perform start) ∧
    ∀ line, Evolves c start line →
      line.ring.keys = ring.keys ∧ 0 ≤ line.ring.index ∧ line.ring.index < ring.size ∧
      ((List.range ring.size).map line.ring.placeAfter).Nodup ∧
      ∀ url payload,
        Pass c url payload line ring.size (c.request url payload line) ∧
        ((∃ e, (c.request url payload line).1 = .error e) ↔
          ∀ i < ring.size, (line.wire.reply i).TurnsDown) ∧
        ((∃ e, (c.request url payload line).1 = .error e) →
          (c.request url payload line).2.ring = line.ring) := by
  intro c ring start operations
  have filled : ring.keys ≠ [] := by decide
  exact ⟨filled, by decide, by decide, rotation_fair c filled _ _ operations⟩

end Client

end Arabize
