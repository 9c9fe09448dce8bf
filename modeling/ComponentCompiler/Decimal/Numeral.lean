import ComponentCompiler.Decimal.Binary64
import ComponentCompiler.Text.Basic

/-! Decimal numerals: a sign, whole digits, perhaps a fraction and an exponent. -/

namespace ComponentCompiler

structure Numeral where
  negative : Bool
  whole : Text
  fraction : Option Text
  exponent : Option Int
  deriving DecidableEq, Repr

namespace Numeral

def digitsValue (digits : Text) : Nat :=
  digits.foldl (fun n c => 10 * n + (c.toNat - '0'.toNat)) 0

def digits (s : Text) : Text × Text :=
  (s.takeWhile Char.isDigit, s.dropWhile Char.isDigit)

def readWhole? : Text → Option (Text × Text)
  | [] => none
  | c :: s =>
    if c = '0' then some (['0'], s)
    else if c.isDigit then some (digits (c :: s))
    else none

def readFraction : Text → Option Text × Text
  | '.' :: s =>
    match digits s with
    | ([], _) => (none, '.' :: s)
    | (ds, rest) => (some ds, rest)
  | s => (none, s)

def readExponentDigits? (negative : Bool) (s : Text) : Option (Int × Text) :=
  match digits s with
  | ([], _) => none
  | (ds, rest) => some (if negative then -(digitsValue ds : Int) else digitsValue ds, rest)

def readSignedExponent? : Text → Option (Int × Text)
  | '-' :: s => readExponentDigits? true s
  | '+' :: s => readExponentDigits? false s
  | s => readExponentDigits? false s

def readExponent : Text → Option Int × Text
  | [] => (none, [])
  | c :: s =>
    if c = 'e' ∨ c = 'E' then
      match readSignedExponent? s with
      | some (e, rest) => (some e, rest)
      | none => (none, c :: s)
    else (none, c :: s)

def readUnsigned? (negative : Bool) (s : Text) : Option (Numeral × Text) :=
  (readWhole? s).map fun whole =>
    let fraction := readFraction whole.2
    let exponent := readExponent fraction.2
    (⟨negative, whole.1, fraction.1, exponent.1⟩, exponent.2)

def read? : Text → Option (Numeral × Text)
  | '-' :: s => readUnsigned? true s
  | s => readUnsigned? false s

theorem length_digits (s : Text) : (digits s).2.length ≤ s.length :=
  (List.dropWhile_suffix _).length_le

theorem length_of_readWhole? {s ds rest : Text} (h : readWhole? s = some (ds, rest)) :
    rest.length < s.length := by
  cases s with
  | nil => simp [readWhole?] at h
  | cons c s =>
    simp only [readWhole?] at h
    split at h
    · obtain ⟨_, rfl⟩ := Prod.mk.inj (Option.some.inj h)
      simp
    · split at h
      · next hd =>
        obtain ⟨_, rfl⟩ := Prod.mk.inj (Option.some.inj h)
        rw [List.dropWhile_cons_of_pos hd]
        exact Nat.lt_succ_of_le (length_digits s)
      · simp at h

theorem length_readFraction (s : Text) : (readFraction s).2.length ≤ s.length := by
  unfold readFraction
  split
  · next s =>
    split
    · exact Nat.le_refl _
    · next h =>
      have := length_digits s
      rw [h] at this
      exact Nat.le_succ_of_le this
  · exact Nat.le_refl _

theorem length_of_readExponentDigits? {neg : Bool} {s rest : Text} {e : Int}
    (h : readExponentDigits? neg s = some (e, rest)) : rest.length ≤ s.length := by
  unfold readExponentDigits? at h
  split at h
  · simp at h
  · next hd =>
    obtain ⟨_, rfl⟩ := Prod.mk.inj (Option.some.inj h)
    have := length_digits s
    rwa [hd] at this

theorem length_of_readSignedExponent? {s rest : Text} {e : Int}
    (h : readSignedExponent? s = some (e, rest)) : rest.length ≤ s.length := by
  unfold readSignedExponent? at h
  split at h
  · exact Nat.le_succ_of_le (length_of_readExponentDigits? h)
  · exact Nat.le_succ_of_le (length_of_readExponentDigits? h)
  · exact length_of_readExponentDigits? h

theorem length_readExponent (s : Text) : (readExponent s).2.length ≤ s.length := by
  unfold readExponent
  split
  · exact Nat.le_refl _
  · split
    · split
      · next h => exact Nat.le_succ_of_le (length_of_readSignedExponent? h)
      · exact Nat.le_refl _
    · exact Nat.le_refl _

theorem length_of_readUnsigned? {neg : Bool} {s rest : Text} {n : Numeral}
    (h : readUnsigned? neg s = some (n, rest)) : rest.length < s.length := by
  obtain ⟨⟨whole, t⟩, hw, he⟩ := Option.map_eq_some_iff.1 h
  obtain ⟨_, rfl⟩ := Prod.mk.inj he
  exact Nat.lt_of_le_of_lt
    (Nat.le_trans (length_readExponent _) (length_readFraction t)) (length_of_readWhole? hw)

theorem length_of_read? {s rest : Text} {n : Numeral} (h : read? s = some (n, rest)) :
    rest.length < s.length := by
  unfold read? at h
  split at h
  · exact Nat.lt_succ_of_lt (length_of_readUnsigned? h)
  · exact length_of_readUnsigned? h

def isInteger (n : Numeral) : Bool :=
  n.fraction.isNone && n.exponent.isNone

def toInt (n : Numeral) : Int :=
  if n.negative then -(digitsValue n.whole : Int) else digitsValue n.whole

def toBinary64 (n : Numeral) : Binary64 :=
  let fraction := n.fraction.getD []
  let significand := digitsValue (n.whole ++ fraction)
  let scale : Int := n.exponent.getD 0 - fraction.length
  let order : Int := (Text.ofNat significand).length + scale
  if significand = 0 ∨ order < -400 then .zero n.negative
  else if 400 < order then .infinite n.negative
  else .ofQuotient n.negative (significand * Nat.pow 10 scale.toNat) (Nat.pow 10 (-scale).toNat)

end Numeral

end ComponentCompiler
