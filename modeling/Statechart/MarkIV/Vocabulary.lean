import Statechart.MarkIV.Register
import Statechart.Text.Flag
import Statechart.Vocabulary

/-!
# The events and actions of the Mark IV

A click on the brew button carries what the sensors read at that moment; the other events are
bare signals of the sensors. Each action writes one flag of the register, whatever it was before.
-/

namespace Statechart.MarkIV

inductive Event
  | brewClicked (reservoirEmpty potEmpty : Bool)
  | reservoirEmptied
  | potPartial
  | potRemoved
  | potEmptied
  deriving DecidableEq, Repr

namespace Event

def kind : Event → String
  | brewClicked .. => "BREW_CLICKED"
  | reservoirEmptied => "RESERVOIR_EMPTIED"
  | potPartial => "POT_PARTIAL"
  | potRemoved => "POT_REMOVED"
  | potEmptied => "POT_EMPTIED"

instance : Statechart.Event Event where
  kind := kind

def debug : Event → String
  | brewClicked reservoirEmpty potEmpty =>
    "BrewClicked \x7b reservoir_empty: " ++ Flag.text reservoirEmpty ++ ", pot_empty: " ++
      Flag.text potEmpty ++ " \x7d"
  | reservoirEmptied => "ReservoirEmptied"
  | potPartial => "PotPartial"
  | potRemoved => "PotRemoved"
  | potEmptied => "PotEmptied"

/-- Whether brewing may start: a click with a loaded reservoir and an empty pot in place. -/
def passesBrewCheck : Event → Bool
  | brewClicked false true => true
  | _ => false

end Event

inductive Action
  | valveOpen
  | valveClose
  | boilerOn
  | boilerOff
  | warmerOn
  | warmerOff
  | lightOn
  | lightOff
  deriving DecidableEq, Repr

namespace Action

def all : List Action :=
  [valveOpen, valveClose, boilerOn, boilerOff, warmerOn, warmerOff, lightOn, lightOff]

def name : Action → String
  | valveOpen => "valveOpen"
  | valveClose => "valveClose"
  | boilerOn => "boilerOn"
  | boilerOff => "boilerOff"
  | warmerOn => "warmerOn"
  | warmerOff => "warmerOff"
  | lightOn => "lightOn"
  | lightOff => "lightOff"

instance : Statechart.Action Action where
  name := name

def call : Action → String
  | valveOpen => "valve_open"
  | valveClose => "valve_close"
  | boilerOn => "boiler_on"
  | boilerOff => "boiler_off"
  | warmerOn => "warmer_on"
  | warmerOff => "warmer_off"
  | lightOn => "light_on"
  | lightOff => "light_off"

def setting : Action → Setting
  | valveOpen | valveClose => .valveClosed
  | boilerOn | boilerOff => .boilerOn
  | warmerOn | warmerOff => .warmerOn
  | lightOn | lightOff => .lightOn

def sets : Action → Bool
  | valveClose | boilerOn | warmerOn | lightOn => true
  | valveOpen | boilerOff | warmerOff | lightOff => false

end Action

end Statechart.MarkIV
