import Arabize.Text.Quoted

/-! # UTF-8

Texts as bytes and back.  A text without surrogates has one encoding; a surrogate has
none, and the report names the first run of them.  Decoding refuses the first byte that
cannot start or continue a sequence and says where the sequence began and which of its
bytes were looked at.
-/

namespace Arabize

abbrev Bytes := List UInt8

namespace Utf8

/-! ## Encoding -/

/-- A run of surrogates that kept a text from being encoded. -/
structure EncodeError where
  first : CodePoint
  start : Nat
  count : Nat
  deriving DecidableEq, Repr

def encodeChar (c : CodePoint) : Bytes :=
  let n := c.val
  if n < 0x80 then [UInt8.ofNat n]
  else if n < 0x800 then [UInt8.ofNat (0xC0 + n / 0x40), UInt8.ofNat (0x80 + n % 0x40)]
  else if n < 0x10000 then
    [UInt8.ofNat (0xE0 + n / 0x1000), UInt8.ofNat (0x80 + n / 0x40 % 0x40),
     UInt8.ofNat (0x80 + n % 0x40)]
  else
    [UInt8.ofNat (0xF0 + n / 0x40000), UInt8.ofNat (0x80 + n / 0x1000 % 0x40),
     UInt8.ofNat (0x80 + n / 0x40 % 0x40), UInt8.ofNat (0x80 + n % 0x40)]

def charSize (c : CodePoint) : Nat := (encodeChar c).length

def size : Text → Nat
  | [] => 0
  | c :: t => charSize c + size t

/-- The bytes of a text, surrogates given the three bytes their number would have. -/
def encodeLoose (t : Text) : Bytes := t.flatMap encodeChar

/-- The first surrogate of a text and the run it starts, offsets counted from `start`. -/
def firstSurrogates (start : Nat) : Text → Option EncodeError
  | [] => none
  | c :: t =>
    if c.isSurrogate then
      some ⟨c, start, 1 + (t.takeWhile CodePoint.isSurrogate).length⟩
    else firstSurrogates (start + 1) t

/-- The bytes of a text, or the first run of surrogates in it. -/
def encode (t : Text) : Except EncodeError Bytes :=
  match firstSurrogates 0 t with
  | some e => .error e
  | none => .ok (encodeLoose t)

def EncodeError.message (e : EncodeError) : Text :=
  if e.count ≤ 1 then
    "'utf-8' codec can't encode character '" ++ Text.escapeByNumber e.first ++ "' in position "
      ++ Text.ofNat e.start ++ ": surrogates not allowed"
  else
    "'utf-8' codec can't encode characters in position " ++ Text.ofNat e.start ++ "-"
      ++ Text.ofNat (e.start + e.count - 1) ++ ": surrogates not allowed"

/-! ## Decoding -/

/-- What is wrong with a sequence of bytes. -/
inductive Flaw
  | invalidStart
  /-- A sequence broken off by a byte that does not continue it. -/
  | invalidContinuation
  /-- A sequence that the end of the bytes breaks off. -/
  | unexpectedEnd
  deriving DecidableEq, Repr

/-- The first sequence of bytes that is no UTF-8. -/
structure DecodeError where
  flaw : Flaw
  start : Nat
  count : Nat
  lead : UInt8
  deriving DecidableEq, Repr

def isTail (b : UInt8) : Bool := 0x80 ≤ b && b ≤ 0xBF

/-- Whether `b` may come second after the lead byte, which excludes overlong forms,
    surrogates and numbers past the last code point. -/
def isSecond (lead b : UInt8) : Bool :=
  isTail b && (if lead == 0xE0 then 0xA0 ≤ b
    else if lead == 0xED then b ≤ 0x9F
    else if lead == 0xF0 then 0x90 ≤ b
    else if lead == 0xF4 then b ≤ 0x8F
    else true)

/-- The low six bits of a continuation byte. -/
def tailBits (b : UInt8) : Nat := b.toNat % 0x40

/-- The first code point of a non-empty sequence of bytes and the number of bytes it
    takes, or the flaw and the number of bytes at fault. -/
def decodeOne (lead : UInt8) (rest : Bytes) : Except (Flaw × Nat) (CodePoint × Nat) :=
  let n := lead.toNat
  if n < 0x80 then .ok (CodePoint.ofNat n, 1)
  -- Continuation bytes, and bytes that would begin a sequence longer than needed.
  else if n < 0xC2 || 0xF4 < n then .error (.invalidStart, 1)
  else
    match rest with
    | [] => .error (.unexpectedEnd, 1)
    | b :: rest =>
      if !isSecond lead b then .error (.invalidContinuation, 1)
      else if n < 0xE0 then .ok (CodePoint.ofNat (n % 0x20 * 0x40 + tailBits b), 2)
      else
        match rest with
        | [] => .error (.unexpectedEnd, 2)
        | c :: rest =>
          if !isTail c then .error (.invalidContinuation, 2)
          else if n < 0xF0 then
            .ok (CodePoint.ofNat (n % 0x10 * 0x1000 + tailBits b * 0x40 + tailBits c), 3)
          else
            match rest with
            | [] => .error (.unexpectedEnd, 3)
            | d :: _ =>
              if !isTail d then .error (.invalidContinuation, 3)
              else
                .ok (CodePoint.ofNat (n % 0x08 * 0x40000 + tailBits b * 0x1000
                  + tailBits c * 0x40 + tailBits d), 4)

/-- Decodes bytes from offset `start` on, passing over the first `skip` of them, which
    belong to a code point already decoded. -/
def decodeFrom (start : Nat) : (skip : Nat) → Bytes → Except DecodeError Text
  | _, [] => .ok []
  | skip + 1, _ :: bs => decodeFrom (start + 1) skip bs
  | 0, b :: bs =>
    match decodeOne b bs with
    | .error (flaw, count) => .error ⟨flaw, start, count, b⟩
    | .ok (c, width) =>
      match decodeFrom (start + 1) (width - 1) bs with
      | .ok t => .ok (c :: t)
      | .error e => .error e

/-- The text that a sequence of bytes encodes. -/
def decode (bs : Bytes) : Except DecodeError Text := decodeFrom 0 0 bs

def Flaw.message : Flaw → Text
  | .invalidStart => "invalid start byte"
  | .invalidContinuation => "invalid continuation byte"
  | .unexpectedEnd => "unexpected end of data"

/-- Says which bytes are at fault and why. -/
def DecodeError.message (e : DecodeError) : Text :=
  if e.count ≤ 1 then
    "'utf-8' codec can't decode byte 0x" ++ Text.hexFixed 2 e.lead.toNat ++ " in position "
      ++ Text.ofNat e.start ++ ": " ++ e.flaw.message
  else
    "'utf-8' codec can't decode bytes in position " ++ Text.ofNat e.start ++ "-"
      ++ Text.ofNat (e.start + e.count - 1) ++ ": " ++ e.flaw.message

end Utf8

end Arabize
