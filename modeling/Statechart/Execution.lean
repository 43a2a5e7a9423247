import Statechart.Reaction
import Statechart.History

/-!
# Executions

A machine at work. An execution owns its context, the sink its actions go to, the active index
path of every region once it is started, and the history if one is kept. A call is run to its
end; one that comes at the wrong time answers a `Misuse` and there is no new execution, so
nothing has changed.
-/

namespace Statechart

inductive Misuse
  | notStarted
  | alreadyStarted
  deriving DecidableEq, Repr

def Misuse.message : Misuse → String
  | .notStarted => "Interpreter not started. Call start() before processing events"
  | .alreadyStarted => "Interpreter already started"

structure Execution (C E A S : Type) where
  machine : Machine C E A
  context : C
  sink : S
  active : Option (List (List Nat))
  history : Option History

structure Outcome (C E A S : Type) where
  execution : Execution C E A S
  configuration : Configuration
  log : List Log.Entry

namespace Execution

variable {C E A S : Type}

def new (machine : Machine C E A) (context : C) (sink : S) : Execution C E A S :=
  ⟨machine, context, sink, none, none⟩

/-- Keeps a history from here on; what was kept before is gone. -/
def withHistory (execution : Execution C E A S) (limit : Nat) : Execution C E A S :=
  { execution with history := some (.withLimit limit) }

def isStarted (execution : Execution C E A S) : Bool :=
  execution.active.isSome

def describe (machine : Machine C E A) (active : List (List Nat)) : Configuration :=
  ⟨List.zipWith (fun region path => ⟨region.label.id, Machine.Region.names region path⟩)
    machine.regions active⟩

def configuration (execution : Execution C E A S) : Except Misuse Configuration :=
  match execution.active with
  | none => .error .notStarted
  | some active => .ok (describe execution.machine active)

/-- Performs the effects of a reaction in order and logs them. -/
def perform [Action A] [Sink A S] :
    List (Effect A) → S → S × List Log.Entry
  | [], sink => (sink, [])
  | effect :: rest, sink =>
    let (sink', entries) : S × List Log.Entry := match effect with
      | .refused region state event => (sink, [.refused region state event])
      | .moved region source target event => (sink, [.transition region source target event])
      | .fired action =>
        let (sink', notes) := Sink.perform action sink
        (sink', .firing (Action.name action) :: notes.map .note)
    let (sink'', more) := perform rest sink'
    (sink'', entries ++ more)

def startPaths (machine : Machine C E A) : List (List Nat) :=
  machine.regions.map fun region => Machine.Region.entryPath region region.label.initial

def startActions (machine : Machine C E A) : List A :=
  machine.regions.flatMap fun region =>
    Machine.Region.entries region (Machine.Region.entryPath region region.label.initial)

def start [Action A] [Sink A S] (execution : Execution C E A S) :
    Except Misuse (Outcome C E A S) :=
  match execution.active with
  | some _ => .error .alreadyStarted
  | none =>
    let machine := execution.machine
    let active := startPaths machine
    let actions := startActions machine
    let (sink, log) := perform (actions.map .fired) execution.sink
    let configuration := describe machine active
    .ok
      { execution := { execution with sink := sink, active := some active }
        configuration := configuration
        log := log ++ [.started machine.id configuration actions.length] }

variable [Event E]

def reactions (machine : Machine C E A) (context : C) (event : E) (active : List (List Nat)) :
    List (Reaction A) :=
  List.zipWith (Machine.Region.react context event) machine.regions active

def settle (reactions : List (Reaction A)) (active : List (List Nat)) : List (List Nat) :=
  List.zipWith (fun reaction path => reaction.path.getD path) reactions active

def process [Action A] [Sink A S] (execution : Execution C E A S) (event : E)
    (time : Timestamp) : Except Misuse (Outcome C E A S) :=
  match execution.active with
  | none => .error .notStarted
  | some active =>
    let machine := execution.machine
    let kind := Event.kind event
    let reactions := reactions machine execution.context event active
    let effects := reactions.flatMap (·.effects)
    let active' := settle reactions active
    let (sink, log) := perform effects execution.sink
    let after := describe machine active'
    let step : Step :=
      { event := kind
        before := describe machine active
        after := after
        actions := (Effect.actions effects).map Action.name
        time := time }
    .ok
      { execution :=
          { execution with
            sink := sink
            active := some active'
            history := execution.history.map (·.record step) }
        configuration := after
        log := log ++ if reactions.any (·.moved) then [] else [.ignored kind] }

def accepts (execution : Execution C E A S) (event : E) : Except Misuse Bool :=
  match execution.active with
  | none => .error .notStarted
  | some active =>
    .ok ((List.zipWith (Machine.Region.accepts execution.context event)
      execution.machine.regions active).any id)

end Execution

end Statechart
