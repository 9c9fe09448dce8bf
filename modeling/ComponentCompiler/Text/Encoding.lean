import ComponentCompiler.Text.Utf16
import ComponentCompiler.Text.Utf8

/-!
UTF-16 texts as bytes. Half of a pair has no bytes, and a text in which one stands alone cannot be
put into a file. On paths the trailing halves from `dc80` to `dcff` stand for the bytes from `80` to
`ff`, so that every name can be shown and given back.
-/

namespace ComponentCompiler.Utf16

structure Fault where
  position : Nat
  first : UInt16
  length : Nat
  deriving DecidableEq, Repr

def Fault.message (f : Fault) : Text :=
  let place :=
    if f.length = 1 then
      "character '\\u".toList ++ Text.hex 4 f.first.toNat ++ "' in position ".toList ++
        Text.ofNat f.position
    else
      "characters in position ".toList ++ Text.ofNat f.position ++
        '-' :: Text.ofNat (f.position + f.length - 1)
  "'utf-8' codec can't encode ".toList ++ place ++ ": surrogates not allowed".toList

/-- Encodes from the position `pos`; `byte?` tells which halves stand for a byte. -/
def encodeFrom (byte? : UInt16 → Option UInt8) :
    (pos : Nat) → List Point → Except Fault (List UInt8)
  | _, [] => .ok []
  | pos, .scalar c :: rest =>
    (encodeFrom byte? (pos + 1) rest).map (String.utf8EncodeChar c ++ ·)
  | pos, .half u :: rest =>
    match byte? u with
    | some b => (encodeFrom byte? (pos + 1) rest).map (b :: ·)
    | none => .error ⟨pos, u, (rest.takeWhile Point.isHalf).length + 1⟩

def encode (s : Utf16) : Except Fault (List UInt8) :=
  encodeFrom (fun _ => none) 0 s.points

def byteOfHalf? (u : UInt16) : Option UInt8 :=
  if 0xdc80 ≤ u && u ≤ 0xdcff then some (u - 0xdc00).toUInt8 else none

def encodePath (s : Utf16) : Except Fault (List UInt8) :=
  encodeFrom byteOfHalf? 0 s.points

def decodePathFrom : (skip : Nat) → List UInt8 → Utf16
  | _, [] => []
  | skip + 1, _ :: bytes => decodePathFrom skip bytes
  | 0, b :: bytes =>
    match Text.Utf8.first b bytes with
    | .ok c => ofChar c ++ decodePathFrom (c.utf8Size - 1) bytes
    | .error _ => (0xdc00 + b.toUInt16) :: decodePathFrom 0 bytes

def decodePath (bytes : List UInt8) : Utf16 :=
  decodePathFrom 0 bytes

theorem encodeFrom_scalar (byte? : UInt16 → Option UInt8) (pos : Nat) (s : Text) :
    encodeFrom byte? pos (s.map Point.scalar) = .ok (Text.Utf8.encode s) := by
  induction s generalizing pos with
  | nil => rfl
  | cons c s ih => simp [encodeFrom, ih, Text.Utf8.encode, Except.map]

theorem encode_ofText (s : Text) : encode (ofText s) = .ok (Text.Utf8.encode s) := by
  rw [encode, points_ofText, encodeFrom_scalar]

theorem encodePath_ofText (s : Text) : encodePath (ofText s) = .ok (Text.Utf8.encode s) := by
  rw [encodePath, points_ofText, encodeFrom_scalar]

end ComponentCompiler.Utf16
