import Statechart.Text.Digits

/-!
# The register of the Mark IV

One byte shows the state of the coffee maker: five flags and a field of two bits for the pot. The
top bit belongs to no field, and one pattern of the pot field has no meaning.
-/

namespace Statechart.MarkIV

inductive Pot
  | removed
  | empty
  | partlyFull
  deriving DecidableEq, Repr

namespace Pot

def name : Pot → String
  | removed => "removed"
  | empty => "empty"
  | partlyFull => "partial"

def all : List Pot := [removed, empty, partlyFull]

end Pot

inductive Field
  | valve
  | boiler
  | warmer
  | light
  | reservoir
  | pot
  deriving DecidableEq, Repr

namespace Field

def all : List Field := [valve, boiler, warmer, light, reservoir, pot]

def mask : Field → BitVec 8
  | valve => 0x01
  | boiler => 0x02
  | warmer => 0x04
  | light => 0x08
  | reservoir => 0x10
  | pot => 0x60

def name : Field → String
  | valve => "valve"
  | boiler => "boiler"
  | warmer => "warmer"
  | light => "light"
  | reservoir => "reservoir"
  | pot => "pot"

end Field

inductive Setting
  | valveClosed
  | boilerOn
  | warmerOn
  | lightOn
  | reservoirLoaded
  | potEmpty
  | potPartlyFull
  deriving DecidableEq, Repr

namespace Setting

def field : Setting → Field
  | valveClosed => .valve
  | boilerOn => .boiler
  | warmerOn => .warmer
  | lightOn => .light
  | reservoirLoaded => .reservoir
  | potEmpty | potPartlyFull => .pot

def mask (setting : Setting) : BitVec 8 :=
  setting.field.mask

def bits : Setting → BitVec 8
  | potEmpty => 0x20
  | setting => setting.mask

end Setting

structure Register where
  bits : BitVec 8 := 0
  deriving DecidableEq, Repr, Inhabited

structure Difference where
  field : Field
  expected : String
  actual : String
  deriving DecidableEq, Repr

def Difference.text (difference : Difference) : String :=
  difference.field.name ++ "(" ++ difference.expected ++ ", " ++ difference.actual ++ ")"

namespace Register

/-- Gives a field a value and leaves the others alone. -/
def set (register : Register) (setting : Setting) : Register :=
  ⟨setting.bits ||| (register.bits &&& ~~~setting.mask)⟩

def clear (register : Register) (setting : Setting) : Register :=
  ⟨register.bits &&& ~~~setting.mask⟩

def setFlag (register : Register) (setting : Setting) (on : Bool) : Register :=
  if on then register.set setting else register.clear setting

/-- The settings made one after the other on a byte of zeros. -/
def ofSettings (settings : List Setting) : Register :=
  settings.foldl set ⟨0⟩

def has (register : Register) (field : Field) : Bool :=
  register.bits &&& field.mask ≠ 0

/-- The pot, unless its field holds the pattern without a meaning. -/
def pot (register : Register) : Option Pot :=
  let bits := register.bits &&& Field.pot.mask
  if bits = 0x00 then some .removed
  else if bits = 0x20 then some .empty
  else if bits = 0x60 then some .partlyFull
  else none

def setPot (register : Register) : Pot → Register
  | .removed => register.clear .potPartlyFull
  | .empty => register.set .potEmpty
  | .partlyFull => register.set .potPartlyFull

def word (register : Register) (field : Field) : String :=
  match field with
  | .valve => if register.has field then "closed" else "open"
  | .boiler | .warmer | .light => if register.has field then "on" else "off"
  | .reservoir => if register.has field then "loaded" else "empty"
  | .pot =>
    match register.pot with
    | some .removed => "removed"
    | some .empty => "emptied"
    | some .partlyFull => "partial"
    | none => "unknown"

def hex (register : Register) : String :=
  "0x" ++ Digits.padded 16 2 register.bits.toNat

def display (register : Register) : String :=
  String.join (Field.all.map fun field => field.name ++ "=" ++ register.word field ++ " ") ++
    "(" ++ register.hex ++ ")"

def debug (register : Register) : String :=
  "Observation(" ++ register.hex ++ ")"

def differences (expected actual : Register) : List Difference :=
  (Field.all.filter fun field =>
    expected.bits &&& field.mask ≠ actual.bits &&& field.mask).map fun field =>
      ⟨field, expected.word field, actual.word field⟩

def report (expected actual : Register) : String :=
  ", ".intercalate ((differences expected actual).map (·.text))

end Register

end Statechart.MarkIV
