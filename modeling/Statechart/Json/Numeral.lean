import Statechart.Decimal.Binary64
import Statechart.Text.Digits

/-!
# Numbers as they are written

A numeral without a fraction and an exponent denotes an integer if that fits in 64 bits, signed
or not; every other numeral denotes a binary fraction. The fraction is computed from the leading
digits, as many as make up an unsigned integer of 64 bits, scaled by powers of ten in rounded
arithmetic, so it may miss the nearest one by a little. Minus zero is a fraction.
-/

namespace Statechart.Json

structure Numeral where
  negative : Bool
  whole : List Char
  fraction : List Char := []
  exponent : Option (Bool × List Char) := none
  deriving DecidableEq, Repr

inductive Number
  | integer (value : Int)
  | real (negative : Bool) (magnitude : Binary64)
  deriving DecidableEq, Repr

namespace Numeral

def greatestSignificand : Nat := 18446744073709551615

/-- Takes digits into a significand for as long as it stays within its limit, and counts the
digits that are left over. -/
def accumulate (significand : Nat) : List Char → Nat × Nat
  | [] => (significand, 0)
  | digit :: rest =>
    let next := 10 * significand + Digits.value [digit]
    if next ≤ greatestSignificand then accumulate next rest
    else (significand, rest.length + 1)

def greatestNegative : Nat := 9223372036854775808

def greatestExponent : Nat := 2147483647

def power (exponent : Nat) : Option Binary64 :=
  Binary64.ofFraction (Nat.pow 10 exponent) 1

def greatestPower : Nat := 308

/-- A significand times a power of ten, unless it is too large. Every step rounds. -/
def scaled (significand : Nat) (exponent : Int) : Option Binary64 := do
  let start ← Binary64.ofFraction significand 1
  if start.isZero then return start
  if 0 ≤ exponent then
    if exponent ≤ greatestPower then start.mul? (← power exponent.toNat) else none
  else if -exponent ≤ greatestPower then start.div? (← power (-exponent).toNat)
  else
    let smaller ← start.div? (← power greatestPower)
    let left := -exponent - greatestPower
    if left ≤ greatestPower then smaller.div? (← power left.toNat) else Binary64.ofFraction 0 1

def magnitude (numeral : Numeral) : Option Binary64 :=
  let (whole, surplus) := accumulate 0 numeral.whole
  let (significand, ignored) := accumulate whole numeral.fraction
  let shift : Int := surplus - (numeral.fraction.length - ignored : Nat)
  match numeral.exponent with
  | none => scaled significand shift
  | some (negative, digits) =>
    let exponent := Digits.value digits
    if greatestExponent < exponent then
      if significand = 0 ∨ negative then Binary64.ofFraction 0 1 else none
    else scaled significand (if negative then shift - exponent else shift + exponent)

def isWhole (numeral : Numeral) : Bool :=
  numeral.fraction.isEmpty && numeral.exponent.isNone

def read (numeral : Numeral) : Option Number :=
  let value := Digits.value numeral.whole
  if numeral.isWhole ∧ ¬numeral.negative ∧ value ≤ greatestSignificand then
    some (.integer value)
  else if numeral.isWhole ∧ numeral.negative ∧ 0 < value ∧ value ≤ greatestNegative then
    some (.integer (-value))
  else numeral.magnitude.map (.real numeral.negative)

end Numeral

end Statechart.Json
