import Arabize.Json.Reader
import Arabize.Text.Blank
import Arabize.Text.Lower

/-! # Keys and when to change them

A ring of keys and the place of the one in use.  A ring turns to its next key when the
service turns the one in use down: by a status that says so, or by a bad request whose
text complains of the key.
-/

namespace Arabize

/-- Keys and the place of the one in use. -/
structure KeyRing where
  keys : List Text
  index : Int
  deriving DecidableEq

namespace KeyRing

/-- The ring of some keys, blanks around them taken off and blank ones left out. -/
def ofKeys (keys : List Text) : KeyRing :=
  ⟨(keys.map Text.strip).filter fun k => !k.isEmpty, 0⟩

def size (r : KeyRing) : Nat := r.keys.length

/-- A ring whose place is not past its last key. -/
def settle (r : KeyRing) : KeyRing :=
  if r.keys = [] then r else if (r.size : Int) ≤ r.index then { r with index := 0 } else r

/-- The key in use; a negative place counts from the end. -/
def current? (r : KeyRing) : Option Text :=
  let i := r.settle.index
  if 0 ≤ i then r.keys[i.toNat]?
  else if 0 ≤ i + r.size then r.keys[(i + r.size).toNat]? else none

def rotate (r : KeyRing) : KeyRing :=
  if r.keys = [] then r else { r with index := (r.index + 1) % r.size }

/-- A key in a form fit for showing: no more than its beginning. -/
def mask (key : Text) : Text :=
  if key.length ≤ 8 then key.take 4 ++ Text.ofString "****"
  else key.take 8 ++ Text.ofString "..."

/-- What the text of a bad request says, in lower case, when the key is at fault. -/
def complaints : List Text :=
  List.map Text.ofString ["api key not valid", "invalid api key", "please pass a valid api key"]

/-- Whether a response turns the key itself down. -/
def refusesKey (status : Int) (body : Text) : Bool :=
  status == 401 || status == 403
    || (status == 400 && complaints.any fun c => Text.occursIn c (Text.lower body))

def asksForRotation (status : Int) (body : Text) : Bool :=
  status == 429 || refusesKey status body

/-- The message that the text of a response holds as its error. -/
def errorMessage? (body : Json) : Option Json :=
  (body.field? "error").bind fun error => error.field? "message"

def refusalReason (status : Int) (body : Text) : Except Json.ReadError Json :=
  if status = 429 then .ok (.str "Rate limit reached")
  else if refusesKey status body then .ok (.str "Invalid API key")
  else if body = [] then .ok (.str "Request failed")
  else
    match Json.read body with
    | .ok j => .ok ((errorMessage? j).getD (.str (body.take 100)))
    | .error (.numeralTooLong n) => .error (.numeralTooLong n)
    | .error (.malformed ..) => .ok (.str (body.take 100))

end KeyRing

end Arabize
