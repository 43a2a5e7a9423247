import Statechart.MarkIV.Vocabulary

/-!
# The simulated hardware

Actuators and sensors kept in one register. Every write of an actuator is logged; the sensors are
set from outside, and that is not.
-/

namespace Statechart.MarkIV

structure Hardware where
  register : Register := {}
  deriving DecidableEq, Repr, Inhabited

namespace Hardware

def write (hardware : Hardware) (action : Action) : Hardware :=
  ⟨hardware.register.setFlag action.setting action.sets⟩

instance : Sink Action Hardware where
  perform action hardware :=
    let hardware := hardware.write action
    (hardware, [⟨.trace, "hardware write", [("register", hardware.register.display)]⟩])

def reservoirLoaded (hardware : Hardware) : Bool :=
  hardware.register.has .reservoir

def setReservoir (hardware : Hardware) (loaded : Bool) : Hardware :=
  ⟨hardware.register.setFlag .reservoirLoaded loaded⟩

def pot (hardware : Hardware) : Option Pot :=
  hardware.register.pot

def setPot (hardware : Hardware) (pot : Pot) : Hardware :=
  ⟨hardware.register.setPot pot⟩

def brewClicked (hardware : Hardware) : Event :=
  .brewClicked (!hardware.reservoirLoaded) (hardware.pot == some .empty)

end Hardware

end Statechart.MarkIV
