import ComponentCompiler.Text.Basic

/-!
Texts as bytes. Decoding accepts exactly the well-formed sequences, and says of any other where the
first ill-formed one begins, how far it reaches and what is wrong with it.
-/

namespace ComponentCompiler.Text.Utf8

def encode (s : Text) : List UInt8 :=
  s.flatMap String.utf8EncodeChar

inductive Reason where
  | badStart
  | badContinuation
  | unexpectedEnd
  deriving DecidableEq, Repr

structure Fault where
  reason : Reason
  position : Nat
  first : UInt8
  length : Nat
  deriving DecidableEq, Repr

/-- What a leading byte of a longer sequence promises: the number of bytes to follow, the range of
the next one, and the bits that it gives itself. -/
structure Lead where
  following : Nat
  low : UInt8
  high : UInt8
  bits : Nat

/-- The range of the second byte rules out overlong forms, surrogates and values past the last
scalar value. -/
def lead? (b : UInt8) : Option Lead :=
  let n := b.toNat
  if n < 0xc2 then none
  else if n < 0xe0 then some ⟨1, 0x80, 0xbf, n - 0xc0⟩
  else if n < 0xf0 then
    some ⟨2, if n = 0xe0 then 0xa0 else 0x80, if n = 0xed then 0x9f else 0xbf, n - 0xe0⟩
  else if n < 0xf5 then
    some ⟨3, if n = 0xf0 then 0x90 else 0x80, if n = 0xf4 then 0x8f else 0xbf, n - 0xf0⟩
  else none

structure Flaw where
  reason : Reason
  length : Nat
  deriving DecidableEq, Repr

def follow : (following : Nat) → (low high : UInt8) → (bits seen : Nat) → List UInt8 →
    Except Flaw Nat
  | 0, _, _, bits, _, _ => .ok bits
  | _ + 1, _, _, _, seen, [] => .error ⟨.unexpectedEnd, seen⟩
  | following + 1, low, high, bits, seen, b :: bytes =>
    if low ≤ b ∧ b ≤ high then
      follow following 0x80 0xbf (bits * 64 + b.toNat % 64) (seen + 1) bytes
    else .error ⟨.badContinuation, seen⟩

def first (b : UInt8) (bytes : List UInt8) : Except Flaw Char :=
  if b < 0x80 then .ok (Char.ofNat b.toNat)
  else
    match lead? b with
    | none => .error ⟨.badStart, 1⟩
    | some lead => (follow lead.following lead.low lead.high lead.bits 1 bytes).map Char.ofNat

/-- Decodes from the position `pos`, passing over `skip` bytes of a sequence just decoded. -/
def decodeFrom : (skip pos : Nat) → List UInt8 → Except Fault Text
  | _, _, [] => .ok []
  | skip + 1, pos, _ :: bytes => decodeFrom skip (pos + 1) bytes
  | 0, pos, b :: bytes =>
    match first b bytes with
    | .ok c => (decodeFrom (c.utf8Size - 1) (pos + 1) bytes).map (c :: ·)
    | .error flaw => .error ⟨flaw.reason, pos, b, flaw.length⟩

def decode (bytes : List UInt8) : Except Fault Text :=
  decodeFrom 0 0 bytes

def Reason.message : Reason → Text
  | .badStart => "invalid start byte".toList
  | .badContinuation => "invalid continuation byte".toList
  | .unexpectedEnd => "unexpected end of data".toList

def Fault.message (f : Fault) : Text :=
  let place :=
    if f.length = 1 then
      "byte 0x".toList ++ hex 2 f.first.toNat ++ " in position ".toList ++ ofNat f.position
    else
      "bytes in position ".toList ++ ofNat f.position ++ '-' :: ofNat (f.position + f.length - 1)
  "'utf-8' codec can't decode ".toList ++ place ++ ": ".toList ++ f.reason.message

end ComponentCompiler.Text.Utf8
