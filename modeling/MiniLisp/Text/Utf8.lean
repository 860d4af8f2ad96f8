/-
# Strict UTF-8

A source may be given as bytes, which must be the UTF-8 form of a text: shortest forms
only, no surrogates, nothing beyond the last code point.  A sequence is a lead byte and up
to three bytes after it, each within limits that the lead byte sets.  Decoding goes through
the bytes one at a time and remembers the limits of the bytes that are still missing.

The first fault is reported with the bytes of the sequence that were in order so far: the
end of the bytes or the byte that breaks a limit is not among them.
-/

namespace MiniLisp.Text.Utf8

/-- What is wrong at a fault. -/
inductive Reason where
  /-- No sequence begins with the byte. -/
  | invalidStart
  /-- The next byte does not continue the sequence. -/
  | invalidContinuation
  /-- The bytes end within the sequence. -/
  | unexpectedEnd
deriving DecidableEq, Repr

/-- The first fault of some bytes. -/
structure Fault where
  /-- The number of bytes before the faulty sequence. -/
  start : Nat
  /-- The bytes of the faulty sequence. -/
  bytes : List UInt8
  /-- What is wrong with it. -/
  reason : Reason
deriving DecidableEq, Repr

/-- The least and the greatest byte allowed at a place. -/
abbrev Limits := UInt8 × UInt8

/-- Whether a byte keeps the limits. -/
def Limits.allow (limits : Limits) (byte : UInt8) : Bool := limits.1 ≤ byte && byte ≤ limits.2

/-- The limits of a byte in the middle of a sequence, unless the lead byte narrows them. -/
def continuation : Limits := (0x80, 0xBF)

/-- The payload of a lead byte and the limits of the bytes after it. -/
def lead? (byte : UInt8) : Option (Nat × List Limits) :=
  if byte < 0x80 then some (byte.toNat, [])
  else if byte < 0xC2 then none
  else if byte < 0xE0 then some (byte.toNat % 32, [continuation])
  else if byte = 0xE0 then some (0, [(0xA0, 0xBF), continuation])
  else if byte = 0xED then some (13, [(0x80, 0x9F), continuation])
  else if byte < 0xF0 then some (byte.toNat % 16, [continuation, continuation])
  else if byte = 0xF0 then some (0, [(0x90, 0xBF), continuation, continuation])
  else if byte < 0xF4 then some (byte.toNat % 8, [continuation, continuation, continuation])
  else if byte = 0xF4 then some (4, [(0x80, 0x8F), continuation, continuation])
  else none

/-- Decoding from within a sequence: `start` bytes come before it, `bytes` of it are in
order, in reverse, their payload is `payload`, and `missing` are the limits of the others.
Between sequences nothing is missing. -/
def decodeFrom (start : Nat) (bytes : List UInt8) (payload : Nat) :
    (missing : List Limits) → List UInt8 → Except Fault (List Char)
  | [], [] => .ok []
  | [], byte :: rest =>
    match lead? byte with
    | none => .error ⟨start, [byte], .invalidStart⟩
    | some (payload, []) => do
      let chars ← decodeFrom (start + 1) [] 0 [] rest
      pure (Char.ofNat payload :: chars)
    | some (payload, limits :: more) => decodeFrom start [byte] payload (limits :: more) rest
  | _ :: _, [] => .error ⟨start, bytes.reverse, .unexpectedEnd⟩
  | limits :: more, byte :: rest =>
    if limits.allow byte then
      let payload := payload * 64 + byte.toNat % 64
      match more with
      | [] => do
        let chars ← decodeFrom (start + bytes.length + 1) [] 0 [] rest
        pure (Char.ofNat payload :: chars)
      | next :: more => decodeFrom start (byte :: bytes) payload (next :: more) rest
    else .error ⟨start, bytes.reverse, .invalidContinuation⟩

/-- The text that some bytes are the UTF-8 form of, or their first fault. -/
def decode (bytes : List UInt8) : Except Fault (List Char) := decodeFrom 0 [] 0 [] bytes

/-! ### The message of a fault -/

/-- A reason in words. -/
def Reason.message : Reason → String
  | .invalidStart => "invalid start byte"
  | .invalidContinuation => "invalid continuation byte"
  | .unexpectedEnd => "unexpected end of data"

/-- The two hexadecimal digits of a byte. -/
def hexByte (byte : UInt8) : String :=
  String.ofList [Nat.digitChar (byte.toNat / 16), Nat.digitChar (byte.toNat % 16)]

/-- A fault in words: the byte itself if it is a single one, and the place. -/
def Fault.message (fault : Fault) : String :=
  let place :=
    match fault.bytes with
    | [byte] => s!"byte 0x{hexByte byte} in position {fault.start}"
    | bytes => s!"bytes in position {fault.start}-{fault.start + bytes.length - 1}"
  s!"'utf-8' codec can't decode {place}: {fault.reason.message}"

end MiniLisp.Text.Utf8
