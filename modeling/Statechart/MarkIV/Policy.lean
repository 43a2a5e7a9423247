import Statechart.Build
import Statechart.Execution
import Statechart.MarkIV.Vocabulary

/-!
# The control policy of the Mark IV

Two parallel regions share every event. The brew cycle starts on a click that passes the check,
waits while the pot is away, and is complete when the reservoir is empty; the warmer is on while
a pot with coffee stands on it.
-/

namespace Statechart.MarkIV

abbrev Context := Unit

namespace Policy

def brewRun : Declaration.Region Context Event Action :=
  Declaration.Region.named "brewRun"
    |>.withInitial "brewing"
    |>.withState
      (Declaration.State.named "brewing"
        |>.withEntry [.boilerOn, .valveClose]
        |>.on "POT_REMOVED" "waiting")
    |>.withState
      (Declaration.State.named "waiting"
        |>.withEntry [.boilerOff, .valveOpen]
        |>.on "POT_PARTIAL" "brewing"
        |>.on "POT_EMPTIED" "brewing")

def brewControl : Declaration.Region Context Event Action :=
  Declaration.Region.named "brewControl"
    |>.withInitial "brewIdle"
    |>.withState
      (Declaration.State.named "brewIdle"
        |>.withEntry [.boilerOff, .valveOpen, .lightOff]
        |>.onIf "BREW_CLICKED" "brewRun" ⟨fun _ event => event.passesBrewCheck⟩)
    |>.withState
      (Declaration.State.named "brewRun"
        |>.withEntry [.lightOff]
        |>.on "RESERVOIR_EMPTIED" "brewComplete"
        |>.withRegion brewRun)
    |>.withState
      (Declaration.State.named "brewComplete"
        |>.withEntry [.boilerOff, .valveOpen, .lightOn]
        |>.on "POT_REMOVED" "brewIdle")

def warmerControl : Declaration.Region Context Event Action :=
  Declaration.Region.named "warmerControl"
    |>.withInitial "warmIdle"
    |>.withState
      (Declaration.State.named "warmIdle"
        |>.withEntry [.warmerOff]
        |>.on "POT_PARTIAL" "warmRun")
    |>.withState
      (Declaration.State.named "warmRun"
        |>.withEntry [.warmerOn]
        |>.on "POT_EMPTIED" "warmIdle"
        |>.on "POT_REMOVED" "warmIdle")

def declaration : Declaration Context Event Action :=
  Declaration.named "mark4-controller"
    |>.withRegion brewControl
    |>.withRegion warmerControl

def machine : Except InvalidDefinition (Machine Context Event Action) :=
  declaration.build

def execution {S : Type} (hardware : S) :
    Except InvalidDefinition (Execution Context Event Action S) :=
  machine.map fun machine => .new machine () hardware

end Policy

end Statechart.MarkIV
