import Statechart.Declaration
import Statechart.Violation

/-!
# Checking a declaration

A declaration is well formed when it has a region, and each region, at whatever depth, has a
state, no two states of one id, a known initial state, and only transitions to states of its own.
The check lists every violation: for each region first what is wrong with the region itself, then
state by state the unknown targets followed by the violations of the region inside.
-/

namespace Statechart.Declaration

variable {C E A : Type}

/-- Every occurrence of a value after its first. -/
def repeats (seen : List String) : List String → List String
  | [] => []
  | id :: rest => if id ∈ seen then id :: repeats seen rest else repeats (id :: seen) rest

def RegionLabel.initialViolations (region : RegionLabel) (path : String) (ids : List String) :
    List Violation :=
  match region.initial with
  | none => [.missingInitial path]
  | some initial => if initial ∈ ids then [] else [.unknownInitial path initial]

def RegionLabel.violations (region : RegionLabel) (path : String) (ids : List String) :
    List Violation :=
  (if ids.isEmpty then [.emptyRegion path] else []) ++
    (repeats [] ids).map (.duplicateState path) ++ region.initialViolations path ids

def StateLabel.unknownTargets (state : StateLabel C E A) (path : String) (ids : List String) :
    List Violation :=
  (state.transitions.filter fun transition => transition.target ∉ ids).map fun transition =>
    .unknownTarget path state.id transition.event transition.target

def ids (states : List (State C E A)) : List String :=
  states.map fun state => state.label.id

/-- The dotted path of the region inside a state, given that of the region around it. -/
def innerPath (path id : String) : String :=
  path ++ "." ++ id

mutual

def State.nestedViolations (path : String) : State C E A → List Violation
  | .atomic _ => []
  | .composite label region states =>
    region.violations (innerPath path label.id) (ids states) ++
      statesViolations (innerPath path label.id) (ids states) states

def statesViolations (path : String) (known : List String) :
    List (State C E A) → List Violation
  | [] => []
  | state :: rest =>
    state.label.unknownTargets path known ++ State.nestedViolations path state ++
      statesViolations path known rest

end

def Region.violations (path : String) (region : Region C E A) : List Violation :=
  region.label.violations path (ids region.states) ++
    statesViolations path (ids region.states) region.states

def violations (declaration : Declaration C E A) : List Violation :=
  (if declaration.regions.isEmpty then [.noRegions declaration.id] else []) ++
    declaration.regions.flatMap fun region => Region.violations region.label.id region

end Statechart.Declaration
