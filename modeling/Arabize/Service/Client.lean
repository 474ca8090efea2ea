import Arabize.Json.Display
import Arabize.Lexicon.Store
import Arabize.Service.Answer
import Arabize.Service.KeyRing

/-! # Asking the service

Requests go out over a wire that holds the replies still to come.  A request is tried with
one key after the other, each at most once, until a response comes that does not ask for
another key.  Words are translated by the first model that answers: those that the service
lists, then those that were configured.
-/

namespace Arabize

/-! ## The wire -/

/-- A request; without a payload it only fetches. -/
structure Request where
  url : Text
  payload : Option Json
  timeout : Json

inductive Reply
  | response (status : Int) (body : Text)
  | unreachable (why : Text)
  deriving DecidableEq

/-- The requests sent and the replies still to come. -/
structure Wire where
  replies : List Reply
  otherwise : Reply
  sent : List Request

def Wire.send (w : Wire) (r : Request) : Reply × Wire :=
  match w.replies with
  | [] => (w.otherwise, { w with sent := w.sent ++ [r] })
  | reply :: rest => (reply, ⟨rest, w.otherwise, w.sent ++ [r]⟩)

/-! ## The client -/

/-- A version of the service and a model of it; a configuration may name them by any
    values. -/
abbrev Model := Json × Json

/-- What a client asks for and how long it waits. -/
structure Client where
  /-- The models to try besides those that the service lists. -/
  models : List Model
  timeout : Json

/-- What a client carries from request to request. -/
structure Line where
  ring : KeyRing
  wire : Wire
  log : Log

inductive ServiceError
  | noKeys
  /-- No key brought a response that could be used. -/
  | keysExhausted (count : Nat) (last : Text)
  | modelsExhausted (last : Text)
  | replyNotJson (e : Json.ReadError)
  | emptyAnswer
  /-- In place of an answer the response holds a value that is no text. -/
  | answerNotText (value : Json)
  | answer (e : Answer.AnswerError)
  | store (e : StoreError)

def ServiceError.message : ServiceError → Text
  | .noKeys => "No API keys available. Set GEMINI_API_KEYS in .env"
  | .keysExhausted count last =>
    "All " ++ Text.ofNat count ++ " API key(s) failed. Last error: " ++ last
  | .modelsExhausted last => "All model attempts failed. Last error: " ++ last.take 200
  | .replyNotJson e => "AI response was not JSON: " ++ e.message
  | .emptyAnswer => "AI returned an empty response"
  | .answerNotText value =>
    "expected string or bytes-like object, got '" ++ value.sortName ++ "'"
  | .answer e => e.message
  | .store e => e.message

/-- A conversation with the service that may fail. -/
abbrev Exchange := ExceptT ServiceError (StateM Line)

namespace Client

/-- Whether a line has a key to ask with. -/
def isReady (line : Line) : Bool := line.ring.keys ≠ []

/-! ## One request -/

structure Response where
  status : Int
  body : Text
  deriving DecidableEq

/-- Whether a status stands for an error of the client or of the server. -/
def isErrorStatus (status : Int) : Bool := 400 ≤ status && status < 600

def isOk (status : Int) : Bool := !isErrorStatus status

/-- What is reported of a key that failed. -/
def keyFailed (number : Int) (why : Text) : LogEntry :=
  ⟨.warning, "Key #" ++ Text.ofInt number ++ " failed: " ++ why ++ ", trying next key"⟩

def rotationReason (status : Int) : Text :=
  if status = 429 then "Rate limit reached" else "Invalid API key"

def passOver (line : Line) (why : Text) : Line :=
  { line with
    ring := line.ring.rotate
    log := line.log ++ [keyFailed (line.ring.index + 1) why] }

/-- What comes of a request sent with the key in use: a response to accept, or why the next
    key is to be tried. -/
def attempt (c : Client) (url : Text → Text) (payload : Option Json) (line : Line) :
    Except Text Response × Line :=
  let line := { line with ring := line.ring.settle }
  let key := line.ring.current?.getD []
  let (reply, wire) := line.wire.send ⟨url key, payload, c.timeout⟩
  let line := { line with wire }
  match reply with
  | .unreachable why => (.error why, passOver line ("network error (" ++ why ++ ")"))
  | .response status body =>
    -- Such a response speaks of the key; any other is an answer, good or bad.
    if !isOk status && KeyRing.asksForRotation status body then
      (.error ("HTTP " ++ Text.ofInt status ++ " - " ++ body.take 200),
        passOver line (rotationReason status))
    else (.ok ⟨status, body⟩, line)

/-- Tries the key in use and those after it, at most so many of them; `last` is what the
    key before it failed of. -/
def tryKeys (c : Client) (url : Text → Text) (payload : Option Json) :
    (left : Nat) → (last : Text) → Exchange Response
  | 0, last => fun line => (.error (.keysExhausted line.ring.size last), line)
  | left + 1, _ => fun line =>
    match c.attempt url payload line with
    | (.ok response, line) => (.ok response, line)
    | (.error why, line) => tryKeys c url payload left why line

/-- Sends a request, with every key once if need be. -/
def request (c : Client) (url : Text → Text) (payload : Option Json) : Exchange Response :=
  fun line =>
    if line.ring.keys = [] then (.error .noKeys, line)
    else c.tryKeys url payload line.ring.size [] line

/-! ## Models -/

def address : Text := "https://generativelanguage.googleapis.com"

/-- The version of the service whose models are listed. -/
def listedVersion : Text := "v1beta"

def listUrl (key : Text) : Text := address ++ Text.ofString "/v1beta/models?key=" ++ key

/-- The name of a listed model without the directory it is in. -/
def modelName? (item : Json) : Option Text :=
  match item.field? "name" with
  | some (.str name) =>
    if name = [] then none else some (Text.replaceFirst name "models/" [])
  | _ => none

def modelNames (listing : Json) : List Text :=
  match listing.field? "models" with
  | some (.arr items) => items.filterMap modelName?
  | _ => []

/-- The names in a response to a request for the list of models; none if it is no list. -/
def namesInResponse (r : Response) : List Text :=
  if isErrorStatus r.status then []
  else
    match Json.read r.body with
    | .ok listing => modelNames listing
    | .error _ => []

/-- The names of the models that the service lists; none if it cannot be asked. -/
def fetchModels (c : Client) : StateM Line (List Text) := fun line =>
  match c.request listUrl none line with
  | (.ok r, line) => (namesInResponse r, line)
  | (.error _, line) => ([], line)

def sameModel (a b : Model) : Bool := Json.same a.1 b.1 && Json.same a.2 b.2

def addModel (models : List Model) (m : Model) : List Model :=
  if models.any (sameModel m) then models else models ++ [m]

/-- The models to try, given the names of those that are listed. -/
def candidates (c : Client) (listed : List Text) : List Model :=
  c.models.foldl addModel (listed.map fun name => (.str listedVersion, .str name))

/-! ## Translating words -/

def instruction : Text :=
  "Translate these English words to Arabic. Return STRICT JSON ONLY with no explanations. "
    ++ Text.ofString "Format: \x7b \"word\": \"translated\" \x7d.\n\nWords to translate:\n"

def payload (words : List Text) : Json :=
  let prompt := instruction ++ (Json.arr (words.map .str)).write
  .obj [("contents", .arr [.obj [("parts", .arr [.obj [("text", .str prompt)]])]])]

def modelUrl (m : Model) (key : Text) : Text :=
  address ++ Text.ofString "/" ++ m.1.display ++ Text.ofString "/models/" ++ m.2.display
    ++ Text.ofString ":generateContent?key=" ++ key

def answering (count : Nat) (m : Model) : LogEntry :=
  ⟨.info, "Translating " ++ Text.ofNat count ++ " words with " ++ m.2.display ++ " ("
    ++ m.1.display ++ ")"⟩

/-- Why a model was passed over that responded without success. -/
def modelFailure (m : Model) (r : Response) : Text :=
  m.2.display ++ Text.ofString ": HTTP " ++ Text.ofInt r.status ++ Text.ofString " - "
    ++ r.body.take 200

/-- Asks one model after the other; `last` is what the one before it failed of. -/
def askModels (c : Client) (words : List Text) : (last : Text) → List Model → Exchange Response
  | last, [] => throw (.modelsExhausted last)
  | _, m :: rest => fun line =>
    match c.request (modelUrl m) (some (payload words)) line with
    | (.error e, line) => askModels c words e.message rest line
    | (.ok r, line) =>
      if isOk r.status then
        (.ok r, { line with log := line.log ++ [answering words.length m] })
      else askModels c words (modelFailure m r) rest line

def readResponse (r : Response) : Except ServiceError Lexicon :=
  match Json.read r.body with
  | .error e => .error (.replyNotJson e)
  | .ok reply =>
    match Answer.textOfReply reply with
    | .str [] => .error .emptyAnswer
    | .str t => (Answer.parse t).mapError .answer
    | other => if other.isTruthy then .error (.answerNotText other) else .error .emptyAnswer

def askFor (c : Client) (words : List Text) : Exchange Lexicon := fun line =>
  if words = [] then (.ok [], line)
  else
    let (listed, line) := c.fetchModels line
    match c.askModels words [] (c.candidates listed) line with
    | (.ok r, line) => (readResponse r, line)
    | (.error e, line) => (.error e, line)

def translateHandOff (c : Client) (d : Disk) (p : Path) : Exchange Lexicon := fun line =>
  match Store.loadHandOff d p with
  | .error e => (.error (.store e), line)
  | .ok words => c.askFor words line

end Client

end Arabize
