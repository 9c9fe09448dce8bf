import ComponentCompiler.Text.Utf16

/-!
String literals between double quotes. Writing keeps to printable ASCII: every other unit is an
escape. Reading gives the units back and stops right after the closing quote.
-/

namespace ComponentCompiler.Text.Literal

open Utf16 (ofChar unit)

def hex4 (n : Nat) : Text :=
  [n / 4096 % 16, n / 256 % 16, n / 16 % 16, n % 16].map Nat.digitChar

def escapeUnit (n : Nat) : Text :=
  '\\' :: 'u' :: hex4 n

def encodeUnit (u : UInt16) : Text :=
  if u = unit '"' then ['\\', '"']
  else if u = unit '\\' then ['\\', '\\']
  else if u = unit '\n' then ['\\', 'n']
  else if u = unit '\r' then ['\\', 'r']
  else if u = unit '\t' then ['\\', 't']
  else if u = unit '\x08' then ['\\', 'b']
  else if u = unit '\x0c' then ['\\', 'f']
  else if 0x20 ≤ u && u ≤ 0x7e then [Char.ofNat u.toNat]
  else escapeUnit u.toNat

def encode (s : Utf16) : Text :=
  '"' :: s.flatMap encodeUnit ++ ['"']

def hexValue? (c : Char) : Option Nat :=
  if '0' ≤ c ∧ c ≤ '9' then some (c.toNat - '0'.toNat)
  else if 'a' ≤ c ∧ c ≤ 'f' then some (c.toNat - 'a'.toNat + 10)
  else if 'A' ≤ c ∧ c ≤ 'F' then some (c.toNat - 'A'.toNat + 10)
  else none

def hexValue4? (a b c d : Char) : Option Nat := do
  let a ← hexValue? a
  let b ← hexValue? b
  let c ← hexValue? c
  let d ← hexValue? d
  return ((a * 16 + b) * 16 + c) * 16 + d

def simpleEscape? : Char → Option Char
  | '"' => some '"'
  | '\\' => some '\\'
  | '/' => some '/'
  | 'b' => some '\x08'
  | 'f' => some '\x0c'
  | 'n' => some '\n'
  | 'r' => some '\r'
  | 't' => some '\t'
  | _ => none

def push (units : Utf16) (r : Except Nat (Utf16 × Text)) : Except Nat (Utf16 × Text) :=
  r.map fun (more, rest) => (units ++ more, rest)

theorem push_eq_ok {units all : Utf16} {r : Except Nat (Utf16 × Text)} {rest : Text}
    (h : push units r = .ok (all, rest)) : ∃ more, r = .ok (more, rest) ∧ all = units ++ more := by
  cases r with
  | error => simp [push, Except.map] at h
  | ok p =>
    obtain ⟨more, rest'⟩ := p
    simp only [push, Except.map, Except.ok.injEq, Prod.mk.injEq] at h
    obtain ⟨rfl, rfl⟩ := h
    exact ⟨more, rfl, rfl⟩

/-- Reads the content of a literal whose opening quote has been read, up to and with its closing
quote. A fault is told by the number of characters from it to the end of the text; `opened` is that
number for the opening quote, where an unterminated literal is reported. A unit escape is refused
if it ends the text. -/
def content (opened : Nat) : Text → Except Nat (Utf16 × Text)
  | [] => .error opened
  | '"' :: s => .ok ([], s)
  | ['\\'] => .error opened
  | '\\' :: 'u' :: a :: b :: c :: d :: s =>
    match hexValue4? a b c d, s with
    | some n, _ :: _ => push [n.toUInt16] (content opened s)
    | _, _ => .error (s.length + 5)
  | '\\' :: 'u' :: s => .error (s.length + 1)
  | '\\' :: e :: s =>
    match simpleEscape? e with
    | some c => push (ofChar c) (content opened s)
    | none => .error (s.length + 2)
  | c :: s =>
    if c.toNat < 0x20 then .error (s.length + 1)
    else push (ofChar c) (content opened s)

theorem length_of_content {opened : Nat} {s rest : Text} {units : Utf16}
    (h : content opened s = .ok (units, rest)) : rest.length ≤ s.length := by
  fun_induction content opened s generalizing units with
  | case2 =>
    obtain ⟨_, rfl⟩ := Prod.mk.inj (Except.ok.inj h)
    simp
  | case4 _ _ _ _ _ _ _ _ ih =>
    obtain ⟨_, ht, _⟩ := push_eq_ok h
    have := ih ht
    simp only [List.length_cons] at this ⊢
    omega
  | case7 _ _ _ _ _ _ ih =>
    obtain ⟨_, ht, _⟩ := push_eq_ok h
    have := ih ht
    simp only [List.length_cons]
    omega
  | case10 _ _ _ _ _ _ _ _ ih =>
    obtain ⟨_, ht, _⟩ := push_eq_ok h
    exact Nat.le_succ_of_le (ih ht)
  | _ => simp at h

end ComponentCompiler.Text.Literal
