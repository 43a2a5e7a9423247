/-!
# Digits

Numbers as lists of digits, most significant first.
-/

namespace Statechart.Digits

def value (digits : List Char) : Nat :=
  Nat.ofDigitChars 10 digits 0

/-- A number in a base of at most sixteen, with zeros in front up to a width. -/
def padded (base width number : Nat) : String :=
  String.ofList ((Nat.toDigits base number).leftpad width '0')

end Statechart.Digits
