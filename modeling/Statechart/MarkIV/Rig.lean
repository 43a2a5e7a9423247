import Statechart.MarkIV.Hardware
import Statechart.MarkIV.Policy

/-!
# The control rig of the Mark IV

The policy at work on the simulated hardware. Each call first sets the sensor that it stands
for and then sends the event that the sensor would raise; `Call.send` raises an event without
touching a sensor.
-/

namespace Statechart.MarkIV

inductive Failure
  | definition (invalid : InvalidDefinition)
  | misuse (misuse : Misuse)
  deriving DecidableEq, Repr

def Failure.message : Failure → String
  | .definition invalid => invalid.message
  | .misuse call => call.message

inductive Call
  | loadReservoir
  | clickBrew
  | emptyReservoir
  | potPartial
  | removePot
  | emptyPot
  | send (event : Event)
  deriving DecidableEq, Repr

namespace Call

def sense (hardware : Hardware) : Call → Hardware
  | loadReservoir => hardware.setReservoir true
  | emptyReservoir => hardware.setReservoir false
  | potPartial => hardware.setPot .partlyFull
  | removePot => hardware.setPot .removed
  | emptyPot => hardware.setPot .empty
  | clickBrew | send _ => hardware

def event? (hardware : Hardware) : Call → Option Event
  | loadReservoir => none
  | clickBrew => some hardware.brewClicked
  | emptyReservoir => some .reservoirEmptied
  | potPartial => some .potPartial
  | removePot => some .potRemoved
  | emptyPot => some .potEmptied
  | send event => some event

end Call

structure Rig where
  execution : Execution Context Event Action Hardware

namespace Rig

def ofExecution (execution : Execution Context Event Action Hardware) :
    Except Failure (Rig × List Log.Entry) :=
  if execution.isStarted then .ok (⟨execution⟩, [])
  else
    match execution.start with
    | .error misuse => .error (.misuse misuse)
    | .ok outcome => .ok (⟨outcome.execution⟩, outcome.log)

def assemble (initial : Register) : Except Failure (Rig × List Log.Entry) :=
  match Policy.execution (⟨initial⟩ : Hardware) with
  | .error invalid => .error (.definition invalid)
  | .ok execution => ofExecution execution

def register (rig : Rig) : Register :=
  rig.execution.sink.register

def configuration (rig : Rig) : Except Failure Configuration :=
  rig.execution.configuration.mapError .misuse

def settled (event : Event) (configuration : Configuration) (register : Register) :
    Log.Record :=
  ⟨.debug, "event settled",
    [("event", event.debug), ("configuration", configuration.display),
      ("observation", register.display)]⟩

def send (rig : Rig) (event : Event) (time : Timestamp) :
    Except Failure (Rig × List Log.Entry) :=
  match rig.execution.process event time with
  | .error misuse => .error (.misuse misuse)
  | .ok outcome =>
    let rig : Rig := ⟨outcome.execution⟩
    .ok (rig, outcome.log ++ [.note (settled event outcome.configuration rig.register)])

/-- Sets the sensor of a call, then sends its event if it has one. -/
def call (rig : Rig) (call : Call) (time : Timestamp) :
    Except Failure (Rig × List Log.Entry) :=
  let hardware := call.sense rig.execution.sink
  let rig : Rig := ⟨{ rig.execution with sink := hardware }⟩
  match call.event? hardware with
  | none => .ok (rig, [])
  | some event => rig.send event time

end Rig

end Statechart.MarkIV
