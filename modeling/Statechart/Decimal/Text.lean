import Statechart.Decimal.Shortest

/-!
# Decimals as text

A decimal is written with a point among its digits while its magnitude is moderate, and with an
exponent otherwise. A point always has a digit on either side, and an exponent has a sign.
-/

namespace Statechart.Decimal

structure Layout where
  leadingZeros : Nat
  integerDigits : Nat

def plain : Layout := ⟨4, 16⟩

def exponentText (exponent : Int) : String :=
  (if exponent < 0 then "-" else "+") ++ toString exponent.natAbs

def text (layout : Layout) (decimal : Decimal) : String :=
  let digits := Nat.toDigits 10 decimal.digits
  let point : Int := digits.length + decimal.exponent
  if 0 ≤ decimal.exponent ∧ point ≤ layout.integerDigits then
    String.ofList (digits ++ List.replicate decimal.exponent.toNat '0' ++ ['.', '0'])
  else if 0 < point ∧ point ≤ layout.integerDigits then
    String.ofList (digits.take point.toNat ++ '.' :: digits.drop point.toNat)
  else if -(layout.leadingZeros : Int) ≤ point ∧ point ≤ 0 then
    String.ofList ('0' :: '.' :: List.replicate (-point).toNat '0' ++ digits)
  else
    let fraction := match digits.drop 1 with
      | [] => []
      | more => '.' :: more
    String.ofList (digits.take 1 ++ fraction ++ ['e']) ++ exponentText (point - 1)

end Statechart.Decimal
