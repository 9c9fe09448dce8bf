import ComponentCompiler.Decimal.Binary64
import ComponentCompiler.Text.Basic

/-!
The shortest decimal that reads back as a given double, and its notation.
-/

namespace ComponentCompiler

structure Decimal where
  digits : Nat
  grid : Int
  deriving DecidableEq, Repr

namespace Decimal

/-- Points and interval of one decimal grid, brought to a common denominator: a point `d` of the
grid lies at `d * step`, the double at `4 * significand * unit`. -/
structure Grid where
  step : Nat
  unit : Nat

def Grid.between (exponent grid : Int) : Grid :=
  { step := Nat.pow 10 grid.toNat * Binary64.pow2 (2 - exponent).toNat
    unit := Nat.pow 10 (-grid).toNat * Binary64.pow2 (exponent - 2).toNat }

/-- Whether the point `d` of the grid reads back as `significand * 2 ^ exponent`: it lies between
the midpoints to the neighbouring doubles, which count if the significand is even. Below a power of
two the neighbour is half as far. -/
def readsBack (significand : Nat) (exponent : Int) (g : Grid) (d : Nat) : Bool :=
  let below :=
    if significand = Binary64.pow2 52 ∧ Binary64.leastExponent < exponent then 1 else 2
  let low := (4 * significand - below) * g.unit
  let high := (4 * significand + 2) * g.unit
  let point := d * g.step
  if significand % 2 = 0 then low ≤ point && point ≤ high else low < point && point < high

def onGrid? (significand : Nat) (exponent grid : Int) : Option Decimal :=
  let g := Grid.between exponent grid
  let value := 4 * significand * g.unit
  let d := value / g.step
  let up := 2 * (value % g.step) > g.step ∨ (2 * (value % g.step) = g.step ∧ d % 2 = 1)
  match readsBack significand exponent g d, readsBack significand exponent g (d + 1) with
  | true, true => some ⟨if up then d + 1 else d, grid⟩
  | true, false => some ⟨d, grid⟩
  | false, true => some ⟨d + 1, grid⟩
  | false, false => none

/-- Tries finer and finer grids; seventeen digits always suffice. -/
def search (significand : Nat) (exponent : Int) : (grids : Nat) → (grid : Int) → Decimal
  | 0, grid => ⟨0, grid⟩
  | grids + 1, grid =>
    match onGrid? significand exponent grid with
    | some d => d
    | none => search significand exponent grids (grid - 1)

def shortest (significand : Nat) (exponent : Int) : Decimal :=
  if significand = 0 then ⟨0, 0⟩
  else
    let order : Int := significand.log2 + exponent + 1
    search significand exponent 24 (Int.fdiv (order * 30103) 100000 + 1)

def positional (d : Decimal) : Text :=
  let digits := Text.ofNat d.digits
  let point : Int := digits.length + d.grid
  if point ≤ 0 then '0' :: '.' :: List.replicate (-point).toNat '0' ++ digits
  else if digits.length ≤ point.toNat then
    digits ++ List.replicate (point.toNat - digits.length) '0' ++ ['.', '0']
  else digits.take point.toNat ++ '.' :: digits.drop point.toNat

def scientific (d : Decimal) : Text :=
  let digits := Text.ofNat d.digits
  let exponent : Int := digits.length + d.grid - 1
  let fraction := if digits.length = 1 then [] else '.' :: digits.drop 1
  let size := Text.ofNat exponent.natAbs
  digits.take 1 ++ fraction ++ 'e' :: (if exponent < 0 then '-' else '+') ::
    List.replicate (2 - size.length) '0' ++ size

def text (d : Decimal) : Text :=
  let exponent : Int := (Text.ofNat d.digits).length + d.grid - 1
  if -4 ≤ exponent ∧ exponent < 16 then d.positional else d.scientific

end Decimal

def Binary64.text : Binary64 → Text
  | .nan => "nan".toList
  | .infinite negative => (if negative then "-inf" else "inf").toList
  | .finite negative significand exponent =>
    let magnitude := (Decimal.shortest significand exponent).text
    if negative then '-' :: magnitude else magnitude

end ComponentCompiler
