import ComponentCompiler.Text.Basic

/-!
Texts as UTF-16 units, which is how JSON and scripts have their strings. Half of a surrogate pair
may stand alone there, where it is no character.
-/

namespace ComponentCompiler

abbrev Utf16 := List UInt16

/-- What units spell: a character, or half of a surrogate pair that stands alone. -/
inductive Point where
  | scalar (c : Char)
  | half (unit : UInt16)
  deriving DecidableEq, Repr

namespace Point

def char? : Point → Option Char
  | .scalar c => some c
  | .half _ => none

def code : Point → Nat
  | .scalar c => c.toNat
  | .half unit => unit.toNat

def isHalf : Point → Bool
  | .scalar _ => false
  | .half _ => true

end Point

namespace Utf16

def ofChar (c : Char) : Utf16 :=
  let n := c.toNat
  if n < 0x10000 then [n.toUInt16]
  else [(0xd800 + (n - 0x10000) / 0x400).toUInt16, (0xdc00 + (n - 0x10000) % 0x400).toUInt16]

def ofText (s : Text) : Utf16 :=
  s.flatMap ofChar

def ofString (s : String) : Utf16 :=
  ofText s.toList

def unit (c : Char) : UInt16 :=
  c.toNat.toUInt16

def isLeading (u : UInt16) : Bool :=
  0xd800 ≤ u && u < 0xdc00

def isTrailing (u : UInt16) : Bool :=
  0xdc00 ≤ u && u < 0xe000

def ofPair (leading trailing : UInt16) : Char :=
  Char.ofNat (0x10000 + (leading.toNat - 0xd800) * 0x400 + (trailing.toNat - 0xdc00))

def alone (u : UInt16) : Point :=
  if isLeading u || isTrailing u then .half u else .scalar (Char.ofNat u.toNat)

def points : Utf16 → List Point
  | [] => []
  | [u] => [alone u]
  | u :: v :: rest =>
    if isLeading u && isTrailing v then .scalar (ofPair u v) :: points rest
    else alone u :: points (v :: rest)

def text? (s : Utf16) : Option Text :=
  s.points.mapM Point.char?

def endsIn (ending s : Utf16) : Bool :=
  ending.points.isSuffixOf s.points

def codesPrecede : List Nat → List Nat → Bool
  | [], _ => true
  | _ :: _, [] => false
  | a :: s, b :: t => a < b || (a = b && codesPrecede s t)

def precedes (s t : Utf16) : Bool :=
  codesPrecede (s.points.map Point.code) (t.points.map Point.code)

def join (sep : Utf16) (parts : List Utf16) : Utf16 :=
  List.intercalate sep parts

theorem not_surrogate_of_char (c : Char) : ¬(0xd800 ≤ c.toNat ∧ c.toNat < 0xe000) := by
  rcases c.valid with h | h
  · change c.toNat < 0xd800 at h
    omega
  · obtain ⟨h, _⟩ := h
    change 0xdfff < c.toNat at h
    omega

theorem toNat_char_lt (c : Char) : c.toNat < 0x110000 := by
  rcases c.valid with h | h
  · change c.toNat < 0xd800 at h
    omega
  · exact h.2

theorem toNat_toUInt16 {n : Nat} (h : n < 0x10000) : n.toUInt16.toNat = n :=
  (UInt16.toNat_ofNat' ..).trans (Nat.mod_eq_of_lt h)

theorem isLeading_iff {u : UInt16} :
    isLeading u = true ↔ 0xd800 ≤ u.toNat ∧ u.toNat < 0xdc00 := by
  simp [isLeading, UInt16.le_iff_toNat_le, UInt16.lt_iff_toNat_lt]

theorem isTrailing_iff {u : UInt16} :
    isTrailing u = true ↔ 0xdc00 ≤ u.toNat ∧ u.toNat < 0xe000 := by
  simp [isTrailing, UInt16.le_iff_toNat_le, UInt16.lt_iff_toNat_lt]

theorem points_cons_of_not_leading {u : UInt16} (h : isLeading u = false) (s : Utf16) :
    points (u :: s) = alone u :: points s := by
  cases s with
  | nil => simp [points]
  | cons v s => simp [points, h]

theorem points_ofChar_append (c : Char) (s : Utf16) :
    points (ofChar c ++ s) = .scalar c :: points s := by
  have hs := not_surrogate_of_char c
  have hc := toNat_char_lt c
  by_cases h : c.toNat < 0x10000
  · have hu := toNat_toUInt16 h
    have hl : isLeading c.toNat.toUInt16 = false := by
      rw [Bool.eq_false_iff, ne_eq, isLeading_iff, hu]
      omega
    have ht : isTrailing c.toNat.toUInt16 = false := by
      rw [Bool.eq_false_iff, ne_eq, isTrailing_iff, hu]
      omega
    simp only [ofChar, h, if_true, List.cons_append, List.nil_append]
    rw [points_cons_of_not_leading hl]
    simp only [alone, hl, ht, hu, Char.ofNat_toNat]
    rfl
  · have hu : (0xd800 + (c.toNat - 0x10000) / 0x400).toUInt16.toNat =
        0xd800 + (c.toNat - 0x10000) / 0x400 := toNat_toUInt16 (by omega)
    have hv : (0xdc00 + (c.toNat - 0x10000) % 0x400).toUInt16.toNat =
        0xdc00 + (c.toNat - 0x10000) % 0x400 := toNat_toUInt16 (by omega)
    have hl : isLeading (0xd800 + (c.toNat - 0x10000) / 0x400).toUInt16 = true := by
      rw [isLeading_iff, hu]
      omega
    have ht : isTrailing (0xdc00 + (c.toNat - 0x10000) % 0x400).toUInt16 = true := by
      rw [isTrailing_iff, hv]
      omega
    have hj : 0x10000 + (0xd800 + (c.toNat - 0x10000) / 0x400 - 0xd800) * 0x400 +
        (0xdc00 + (c.toNat - 0x10000) % 0x400 - 0xdc00) = c.toNat := by omega
    simp only [ofChar, h, if_false, List.cons_append, List.nil_append, points, hl, ht, ofPair, hu,
      hv, hj, Char.ofNat_toNat]
    rfl

theorem points_ofText (s : Text) : points (ofText s) = s.map Point.scalar := by
  induction s with
  | nil => rfl
  | cons c s ih => simpa [ofText, points_ofChar_append] using ih

@[simp] theorem text?_ofText (s : Text) : text? (ofText s) = some s := by
  rw [text?, points_ofText]
  induction s with
  | nil => rfl
  | cons c s ih => simp_all [Point.char?]

end Utf16

end ComponentCompiler
