import Statechart.Proofs.Calls

/-!
# The policy as a table

Each of the two regions is in one of a few modes, and a table says where an event takes it and
which actions it then performs. The tables agree with the regions that building the policy gives,
so that an execution of the policy, on any sink, is a pair of modes.
-/

namespace Statechart.MarkIV

structure Table (Mode : Type) where
  region : String
  initial : Mode
  starts : List Action
  path : Mode → List Nat
  states : Mode → List String
  moves : Event → Mode → Option (Mode × List Action)

namespace Table

variable {Mode : Type}

def next (table : Table Mode) (event : Event) (mode : Mode) : Mode :=
  ((table.moves event mode).map (·.1)).getD mode

def performs (table : Table Mode) (event : Event) (mode : Mode) : List Action :=
  ((table.moves event mode).map (·.2)).getD []

structure Describes (table : Table Mode) (region : Machine.Region Context Event Action) :
    Prop where
  id : region.label.id = table.region
  startPath : Machine.Region.startPath region = table.path table.initial
  startActions : Machine.Region.startActions region = table.starts
  names : ∀ mode, Machine.Region.names region (table.path mode) = table.states mode
  after : ∀ event mode, Machine.Region.after () event region (table.path mode) =
    table.path (table.next event mode)
  performs : ∀ event mode, Machine.Region.performs () event region (table.path mode) =
    table.performs event mode

end Table

inductive Brew
  | idle
  | brewing
  | waiting
  | complete
  deriving DecidableEq, Repr

namespace Brew

def path : Brew → List Nat
  | idle => [0]
  | brewing => [1, 0]
  | waiting => [1, 1]
  | complete => [2]

def states : Brew → List String
  | idle => ["brewIdle"]
  | brewing => ["brewRun", "brewing"]
  | waiting => ["brewRun", "waiting"]
  | complete => ["brewComplete"]

def moves : Event → Brew → Option (Brew × List Action)
  | .brewClicked false true, idle => some (brewing, [.lightOff, .boilerOn, .valveClose])
  | .potRemoved, brewing => some (waiting, [.boilerOff, .valveOpen])
  | .potPartial, waiting | .potEmptied, waiting => some (brewing, [.boilerOn, .valveClose])
  | .reservoirEmptied, brewing | .reservoirEmptied, waiting =>
    some (complete, [.boilerOff, .valveOpen, .lightOn])
  | .potRemoved, complete => some (idle, [.boilerOff, .valveOpen, .lightOff])
  | _, _ => none

def table : Table Brew :=
  ⟨"brewControl", idle, [.boilerOff, .valveOpen, .lightOff], path, states, moves⟩

theorem next_brewClicked (reservoirEmpty potEmpty : Bool) (brew : Brew) :
    table.next (.brewClicked reservoirEmpty potEmpty) brew =
      if reservoirEmpty = false ∧ potEmpty = true ∧ brew = idle then brewing else brew := by
  cases reservoirEmpty <;> cases potEmpty <;> cases brew <;> rfl

end Brew

inductive Warm
  | idle
  | running
  deriving DecidableEq, Repr

namespace Warm

def path : Warm → List Nat
  | idle => [0]
  | running => [1]

def states : Warm → List String
  | idle => ["warmIdle"]
  | running => ["warmRun"]

def moves : Event → Warm → Option (Warm × List Action)
  | .potPartial, idle => some (running, [.warmerOn])
  | .potEmptied, running | .potRemoved, running => some (idle, [.warmerOff])
  | _, _ => none

def table : Table Warm :=
  ⟨"warmerControl", idle, [.warmerOff], path, states, moves⟩

end Warm

/-- The mode of each region as it shows in a configuration. -/
def configurationOf (brew : Brew) (warm : Warm) : Configuration :=
  ⟨[⟨"brewControl", brew.states⟩, ⟨"warmerControl", warm.states⟩]⟩

namespace Policy

theorem exists_machine : ∃ machine brew warm, Policy.machine = .ok machine ∧
    machine.regions = [brew, warm] ∧ Brew.table.Describes brew ∧ Warm.table.Describes warm := by
  refine ⟨_, _, _, rfl, rfl, ⟨rfl, rfl, rfl, ?brewNames, ?brewAfter, ?brewPerforms⟩,
    ⟨rfl, rfl, rfl, ?warmNames, ?warmAfter, ?warmPerforms⟩⟩
  case brewNames | warmNames =>
    intro mode
    cases mode <;> rfl
  case brewAfter | brewPerforms | warmAfter | warmPerforms =>
    intro event mode
    rcases event with ⟨_ | _, _ | _⟩ | _ | _ | _ | _ <;> cases mode <;> rfl

variable {S : Type}

/-- An execution of the policy that is started, with the mode that each region is in. -/
structure At (execution : Execution Context Event Action S) (brew : Brew) (warm : Warm) :
    Prop where
  machine : Policy.machine = .ok execution.machine
  active : execution.active = some [brew.path, warm.path]

section Modes

variable {execution : Execution Context Event Action S} {brew : Brew} {warm : Warm}

theorem At.configuration (hAt : At execution brew warm) :
    execution.configuration = .ok (configurationOf brew warm) := by
  obtain ⟨machine, brewRegion, warmRegion, hMachine, hRegions, hBrew, hWarm⟩ := exists_machine
  cases hMachine.symm.trans hAt.machine
  rw [Execution.configuration, hAt.active]
  refine congrArg Except.ok ?_
  rw [Execution.describe, hRegions]
  have hBrewShown : ActivePath.mk brewRegion.label.id
      (Machine.Region.names brewRegion brew.path) = ⟨"brewControl", brew.states⟩ :=
    congrArg₂ ActivePath.mk hBrew.id (hBrew.names brew)
  have hWarmShown : ActivePath.mk warmRegion.label.id
      (Machine.Region.names warmRegion warm.path) = ⟨"warmerControl", warm.states⟩ :=
    congrArg₂ ActivePath.mk hWarm.id (hWarm.names warm)
  exact congrArg₂ (fun path path' => Configuration.mk [path, path']) hBrewShown hWarmShown

variable [Sink Action S]

theorem At.exists_process (hAt : At execution brew warm) (event : Event) (time : Timestamp) :
    ∃ outcome, execution.process event time = .ok outcome ∧
      At outcome.execution (Brew.table.next event brew) (Warm.table.next event warm) ∧
      outcome.execution.sink = Flat.performAll
        (Brew.table.performs event brew ++ Warm.table.performs event warm) execution.sink := by
  obtain ⟨machine, brewRegion, warmRegion, hMachine, hRegions, hBrew, hWarm⟩ := exists_machine
  cases hMachine.symm.trans hAt.machine
  obtain ⟨outcome, hOutcome, hProcessed⟩ :=
    Execution.exists_processed hAt.active event time
  refine ⟨outcome, hOutcome, ⟨?_, ?_⟩, ?_⟩
  · rw [hProcessed.machine]
    exact hAt.machine
  · rw [hProcessed.active, hRegions]
    exact congrArg₂ (fun path path' => some [path, path']) (hBrew.after event brew)
      (hWarm.after event warm)
  · rw [hProcessed.sink, hRegions, List.zipWith_cons_cons, List.zipWith_cons_cons,
      List.zipWith_nil_left, List.flatten_cons, List.flatten_cons, List.flatten_nil,
      List.append_nil]
    exact congrArg₂ (fun actions actions' => Flat.performAll (actions ++ actions') _)
      (hBrew.performs event brew) (hWarm.performs event warm)

end Modes

theorem exists_start [Sink Action S] (sink : S) :
    ∃ execution outcome, Policy.execution sink = .ok execution ∧ execution.active = none ∧
      execution.start = .ok outcome ∧ At outcome.execution .idle .idle ∧
      outcome.execution.sink =
        Flat.performAll (Brew.table.starts ++ Warm.table.starts) sink := by
  obtain ⟨machine, brewRegion, warmRegion, hMachine, hRegions, hBrew, hWarm⟩ := exists_machine
  obtain ⟨outcome, hOutcome, hStarted⟩ :=
    Execution.exists_started (show (Execution.new machine () sink).active = none from rfl)
  refine ⟨.new machine () sink, outcome, ?_, rfl, hOutcome, ⟨?_, ?_⟩, ?_⟩
  · rw [Policy.execution, hMachine]
    rfl
  · rw [hStarted.machine]
    exact hMachine
  · rw [hStarted.active, show (Execution.new machine () sink).machine.regions = _ from hRegions]
    exact congrArg₂ (fun path path' => some [path, path']) hBrew.startPath hWarm.startPath
  · rw [hStarted.sink, show (Execution.new machine () sink).machine.regions = _ from hRegions,
      List.flatMap_cons, List.flatMap_cons, List.flatMap_nil, List.append_nil,
      hBrew.startActions, hWarm.startActions]
    rfl

end Policy

end Statechart.MarkIV
