import Statechart.Chart
import Statechart.Text.Flag
import Statechart.Text.Quoted
import Statechart.Vocabulary

/-!
# Machines

A machine ready to run: transitions and initial states are indices into the region they belong
to. Of each state the candidates are kept by event kind, in the order of their declaration.
-/

namespace Statechart

namespace Machine

structure Candidate (C E : Type) where
  target : Nat
  targetId : String
  guard : Option (Guard C E)

structure StateLabel (C E A : Type) where
  id : String
  entry : List A
  exit : List A
  /-- Each event kind once, with its candidates in order. -/
  table : List (String × List (Candidate C E))

structure RegionLabel where
  id : String
  initial : Nat
  deriving DecidableEq, Repr

abbrev State (C E A : Type) := Node (StateLabel C E A) RegionLabel

abbrev Region (C E A : Type) := Statechart.Region (StateLabel C E A) RegionLabel

end Machine

abbrev Machine (C E A : Type) := Chart (Machine.StateLabel C E A) Machine.RegionLabel

namespace Machine

variable {C E A : Type}

namespace Candidate

def isGuarded (candidate : Candidate C E) : Bool :=
  candidate.guard.isSome

def isOpen (candidate : Candidate C E) (context : C) (event : E) : Bool :=
  match candidate.guard with
  | none => true
  | some guard => guard.check context event

def debug (candidate : Candidate C E) : String :=
  "Transition \x7b target: " ++ Quoted.quote candidate.targetId ++ ", guarded: " ++
    Flag.text candidate.isGuarded ++ " \x7d"

end Candidate

namespace StateLabel

def candidates (state : StateLabel C E A) (kind : String) : List (Candidate C E) :=
  (state.table.lookup kind).getD []

def kinds (state : StateLabel C E A) : List String :=
  state.table.map (·.1)

end StateLabel

def Region.state (region : Region C E A) (id : String) : Option (State C E A) :=
  region.states.find? fun state => state.label.id == id

def Region.initial (region : Region C E A) : Option (State C E A) :=
  region.states[region.label.initial]?

/-- The state reached by ids, each in the region inside the one before. -/
def Region.find (region : Region C E A) : List String → Option (State C E A)
  | [] => none
  | [id] => Region.state region id
  | id :: rest => do
    let state ← Region.state region id
    let nested ← state.nested
    Region.find nested rest

def region (machine : Machine C E A) (id : String) : Option (Region C E A) :=
  machine.regions.find? fun region => region.label.id == id

def findState (machine : Machine C E A) (region path : String) : Option (State C E A) := do
  Region.find (← machine.region region) (Dotted.ids path)

end Machine

end Statechart
