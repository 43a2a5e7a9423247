/-!
# Blank characters

The white space of Unicode: the ASCII controls from tab to carriage return, the space, and the
spaces, line ends and paragraph ends of other scripts.
-/

namespace Statechart.Blank

/-- The code points of the blank characters, as ranges with both ends included. -/
def ranges : List (Nat × Nat) :=
  [(0x09, 0x0d), (0x20, 0x20), (0x85, 0x85), (0xa0, 0xa0), (0x1680, 0x1680), (0x2000, 0x200a),
    (0x2028, 0x2029), (0x202f, 0x202f), (0x205f, 0x205f), (0x3000, 0x3000)]

def isBlank (c : Char) : Bool :=
  ranges.any fun (first, last) => first ≤ c.toNat && c.toNat ≤ last

end Statechart.Blank
