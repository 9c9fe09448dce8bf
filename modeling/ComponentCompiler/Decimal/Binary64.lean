/-!
Double-precision numbers as exact values, and the rounding of a quotient to the nearest of them.
-/

namespace ComponentCompiler

/-- A double: a finite one is `significand * 2 ^ exponent` with its sign. -/
inductive Binary64 where
  | nan
  | infinite (negative : Bool)
  | finite (negative : Bool) (significand : Nat) (exponent : Int)
  deriving DecidableEq, Repr

namespace Binary64

def leastExponent : Int := -1074

def greatestExponent : Int := 971

def zero (negative : Bool) : Binary64 :=
  .finite negative 0 leastExponent

def pow2 (n : Nat) : Nat :=
  Nat.pow 2 n

def roundDiv (a b : Nat) : Nat :=
  let q := a / b
  let r := a % b
  if 2 * r < b ∨ (2 * r = b ∧ q % 2 = 0) then q else q + 1

/-- The double nearest to `num / den`, the one with the even significand if two are as near;
infinite past the greatest. -/
def ofQuotient (negative : Bool) (num den : Nat) : Binary64 :=
  if num = 0 then zero negative
  else
    let e : Int := num.log2 - den.log2
    let order := if den * pow2 e.toNat ≤ num * pow2 (-e).toNat then e else e - 1
    let exponent := max leastExponent (order - 52)
    let significand := roundDiv (num * pow2 (-exponent).toNat) (den * pow2 exponent.toNat)
    let (significand, exponent) :=
      if significand = pow2 53 then (pow2 52, exponent + 1) else (significand, exponent)
    if greatestExponent < exponent then .infinite negative
    else .finite negative significand exponent

def toInt? : Binary64 → Option Int
  | .finite negative significand exponent =>
    let denominator := pow2 (-exponent).toNat
    let numerator := significand * pow2 exponent.toNat
    if numerator % denominator = 0 then
      let n : Int := (numerator / denominator : Nat)
      some (if negative then -n else n)
    else none
  | _ => none

end Binary64

end ComponentCompiler
