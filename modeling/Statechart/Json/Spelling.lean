import Statechart.Json.Fault

/-!
# Strings as they are spelled

What stands between two quotes: characters, written raw or with a short escape, and code units of
sixteen bits written as hexadecimal escapes. Two units that form a surrogate pair are one
character; a surrogate without its partner makes the string unreadable, yet it can be passed over.
-/

namespace Statechart.Json

inductive Piece
  | char (c : Char)
  | unit (code : Nat)
  deriving DecidableEq, Repr

structure Spelling where
  pieces : List Piece
  fault : Option Fault
  deriving DecidableEq, Repr

namespace Spelling

def isHigh (code : Nat) : Bool :=
  0xd800 ≤ code && code < 0xdc00

def isLow (code : Nat) : Bool :=
  0xdc00 ≤ code && code < 0xe000

def pair (high low : Nat) : Char :=
  Char.ofNat (0x10000 + (high - 0xd800) * 0x400 + (low - 0xdc00))

/-- The characters that pieces spell, unless a surrogate stands alone or a fault is met. -/
def characters (fault : Option Fault) : List Piece → Except Fault (List Char)
  | [] =>
    match fault with
    | none => .ok []
    | some fault => .error fault
  | .char c :: rest => (characters fault rest).map (c :: ·)
  | .unit code :: rest =>
    if isHigh code then
      match rest with
      | .unit next :: rest =>
        if isLow next then (characters fault rest).map (pair code next :: ·)
        else .error .malformed
      | .char _ :: _ => .error .malformed
      | [] => .error (fault.getD .malformed)
    else if isLow code then .error .malformed
    else (characters fault rest).map (Char.ofNat code :: ·)

def read (spelling : Spelling) : Except Fault String :=
  (characters spelling.fault spelling.pieces).map String.ofList

end Spelling

end Statechart.Json
