/-!
# Binary fractions of 53 bits

The non-negative numbers `m · 2 ^ e` with `m < 2 ^ 53` and `-1074 ≤ e ≤ 971`, and arithmetic on
them that rounds the exact result to the nearest one, a tie to the even significand. A result
past the largest one is not a number of this kind.
-/

namespace Statechart

/-- The number `significand · 2 ^ exponent`. -/
structure Binary64 where
  significand : Nat
  exponent : Int
  deriving DecidableEq, Repr

namespace Binary64

def bits : Nat := 53

def leastSignificand : Nat := 4503599627370496

def significandBound : Nat := 9007199254740992

def leastExponent : Int := -1074

def greatestExponent : Int := 971

/-- A quotient rounded to the nearest integer, a tie to the even one. -/
def roundDiv (num den : Nat) : Nat :=
  let quotient := num / den
  let twice := 2 * (num % den)
  if twice < den then quotient
  else if den < twice then quotient + 1
  else quotient + quotient % 2

def scale (num den : Nat) (power : Int) : Nat × Nat :=
  if 0 ≤ power then (num * Nat.pow 2 power.toNat, den) else (num, den * Nat.pow 2 (-power).toNat)

/-- The exponent `e` for which `2 ^ e ≤ num / den < 2 ^ (e + 1)`. -/
def log2 (num den : Nat) : Int :=
  let estimate : Int := (num.log2 : Int) - den.log2
  let (num, den) := scale num den (-estimate)
  if den ≤ num then estimate else estimate - 1

def ofFraction (num den : Nat) : Option Binary64 :=
  if num = 0 then some ⟨0, leastExponent⟩
  else
    let exponent := max leastExponent (log2 num den - (bits - 1))
    let (num, den) := scale num den (-exponent)
    let significand := roundDiv num den
    let (significand, exponent) :=
      if significand = significandBound then (leastSignificand, exponent + 1)
      else (significand, exponent)
    if exponent ≤ greatestExponent then some ⟨significand, exponent⟩ else none

def fraction (x : Binary64) : Nat × Nat :=
  scale x.significand 1 x.exponent

def isZero (x : Binary64) : Bool :=
  x.significand = 0

def mul? (x y : Binary64) : Option Binary64 :=
  let (a, b) := x.fraction
  let (c, d) := y.fraction
  ofFraction (a * c) (b * d)

def div? (x y : Binary64) : Option Binary64 :=
  let (a, b) := x.fraction
  let (c, d) := y.fraction
  ofFraction (a * d) (b * c)

end Binary64

end Statechart
