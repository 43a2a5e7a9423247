import Statechart.Decimal.Binary64

/-!
# The shortest decimal that reads back

Of the decimals that round to a given binary fraction, those with the fewest digits, and of these
the nearest; a tie goes to the even digit.
-/

namespace Statechart

structure Decimal where
  digits : Nat
  exponent : Int
  deriving DecidableEq, Repr

namespace Decimal

def trim : Nat → Decimal → Decimal
  | 0, decimal => decimal
  | count + 1, decimal =>
    if decimal.digits ≠ 0 ∧ decimal.digits % 10 = 0 then
      trim count ⟨decimal.digits / 10, decimal.exponent + 1⟩
    else decimal

def scale (num den : Nat) (power : Int) : Nat × Nat :=
  if 0 ≤ power then (num * Nat.pow 10 power.toNat, den)
  else (num, den * Nat.pow 10 (-power).toNat)

def magnitude (num den : Nat) : Int :=
  let estimate : Int := ((Nat.toDigits 10 num).length : Int) - (Nat.toDigits 10 den).length
  let (num, den) := scale num den (-estimate)
  if den ≤ num then estimate + 1 else estimate

end Decimal

namespace Binary64

/-- Whether a fraction rounds to the given number: it lies between the midpoints to the
neighbours, which belong to it when the significand is even. -/
def covers (x : Binary64) (num den : Nat) : Bool :=
  let even := x.significand % 2 = 0
  let quarter := Binary64.scale 1 1 (x.exponent - 2)
  let below := if x.significand = leastSignificand ∧ leastExponent < x.exponent then 1 else 2
  -- all three numbers in quarters of the last place
  let value := num * quarter.2
  let unit := den * quarter.1
  let low := (4 * x.significand - below) * unit
  let high := (4 * x.significand + 2) * unit
  if even then low ≤ value && value ≤ high else low < value && value < high

def onGrid (x : Binary64) (power : Int) : Option Decimal :=
  let (num, den) := x.fraction
  let (scaledNum, scaledDen) := Decimal.scale num den (-power)
  let lower := scaledNum / scaledDen
  let fits (digits : Nat) : Bool :=
    let (num, den) := Decimal.scale digits 1 power
    x.covers num den
  let nearest := roundDiv scaledNum scaledDen
  let other := if nearest = lower then lower + 1 else lower
  if fits nearest then some ⟨nearest, power⟩
  else if fits other then some ⟨other, power⟩
  else none

def shortestFrom (x : Binary64) (magnitude : Int) (tried : Nat) : Nat → Decimal
  | 0 => ⟨0, 0⟩
  | left + 1 =>
    match x.onGrid (magnitude - (tried + 1 : Nat)) with
    | some decimal => decimal.trim 20
    | none => shortestFrom x magnitude (tried + 1) left

/-- The shortest decimal that rounds to the number; seventeen digits are always enough. -/
def shortest (x : Binary64) : Decimal :=
  if x.isZero then ⟨0, 0⟩
  else
    let (num, den) := x.fraction
    shortestFrom x (Decimal.magnitude num den) 0 17

end Binary64

end Statechart
