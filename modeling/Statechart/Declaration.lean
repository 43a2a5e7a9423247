import Statechart.Chart
import Statechart.Vocabulary

/-!
# Declarations

A machine as it is written down: transitions name their targets and regions their initial
states by id. Nothing is checked here. The functions build a declaration step by step; a second
call adds to what is there, except that an initial state and a nested region are replaced.
-/

namespace Statechart

namespace Declaration

/-- A transition as it is written down. Without a guard it is always open. -/
structure Transition (C E : Type) where
  event : String
  target : String
  guard : Option (Guard C E) := none

structure StateLabel (C E A : Type) where
  id : String
  entry : List A := []
  exit : List A := []
  transitions : List (Transition C E) := []

structure RegionLabel where
  id : String
  initial : Option String := none
  deriving DecidableEq, Repr

abbrev State (C E A : Type) := Node (StateLabel C E A) RegionLabel

abbrev Region (C E A : Type) := Statechart.Region (StateLabel C E A) RegionLabel

end Declaration

abbrev Declaration (C E A : Type) := Chart (Declaration.StateLabel C E A) Declaration.RegionLabel

namespace Declaration

variable {C E A : Type}

namespace State

def named (id : String) : State C E A :=
  .atomic ⟨id, [], [], []⟩

def withEntry (state : State C E A) (actions : List A) : State C E A :=
  state.modifyLabel fun label => { label with entry := label.entry ++ actions }

def withExit (state : State C E A) (actions : List A) : State C E A :=
  state.modifyLabel fun label => { label with exit := label.exit ++ actions }

def withTransition (state : State C E A) (transition : Transition C E) : State C E A :=
  state.modifyLabel fun label =>
    { label with transitions := label.transitions ++ [transition] }

def on (state : State C E A) (event target : String) : State C E A :=
  state.withTransition ⟨event, target, none⟩

def onIf (state : State C E A) (event target : String) (guard : Guard C E) : State C E A :=
  state.withTransition ⟨event, target, some guard⟩

/-- Makes the state composite, or replaces the region inside it. -/
def withRegion (state : State C E A) (region : Region C E A) : State C E A :=
  state.withNested region

end State

namespace Region

def named (id : String) : Region C E A :=
  ⟨⟨id, none⟩, []⟩

def withInitial (region : Region C E A) (id : String) : Region C E A :=
  { region with label := { region.label with initial := some id } }

def withStates (region : Region C E A) (states : List (State C E A)) : Region C E A :=
  { region with states := region.states ++ states }

def withState (region : Region C E A) (state : State C E A) : Region C E A :=
  region.withStates [state]

end Region

def named (id : String) : Declaration C E A :=
  ⟨id, []⟩

def withRegion (declaration : Declaration C E A) (region : Region C E A) : Declaration C E A :=
  { declaration with regions := declaration.regions ++ [region] }

end Declaration

end Statechart
