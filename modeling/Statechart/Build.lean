import Statechart.Declaration.Check
import Statechart.Machine

/-!
# Building a machine

A declaration without violations becomes a machine: every target and every initial state is
replaced by its position among the states of its own region. Resolving stops at the first name
it does not know; after the check has passed there is none.
-/

namespace Statechart.Declaration

variable {C E A : Type}

def addCandidate (kind : String) (candidate : Machine.Candidate C E) :
    List (String × List (Machine.Candidate C E)) → List (String × List (Machine.Candidate C E))
  | [] => [(kind, [candidate])]
  | (known, candidates) :: rest =>
    if known = kind then (known, candidates ++ [candidate]) :: rest
    else (known, candidates) :: addCandidate kind candidate rest

/-- The position of an id, the last one where the id stands more than once. -/
def position? (id : String) : List String → Option Nat
  | [] => none
  | other :: rest =>
    match position? id rest with
    | some index => some (index + 1)
    | none => if other = id then some 0 else none

def Transition.resolve (path state : String) (ids : List String) (transition : Transition C E) :
    Except Violation (Machine.Candidate C E) :=
  match position? transition.target ids with
  | none => .error (.unknownTarget path state transition.event transition.target)
  | some target => .ok ⟨target, transition.target, transition.guard⟩

def StateLabel.resolve (path : String) (ids : List String) (state : StateLabel C E A) :
    Except Violation (Machine.StateLabel C E A) := do
  let table ← state.transitions.foldlM
    (fun table transition => do
      return addCandidate transition.event (← transition.resolve path state.id ids) table) []
  return ⟨state.id, state.entry, state.exit, table⟩

def RegionLabel.resolve (path : String) (ids : List String) (region : RegionLabel) :
    Except Violation Machine.RegionLabel :=
  match region.initial with
  | none => .error (.missingInitial path)
  | some initial =>
    match position? initial ids with
    | none => .error (.unknownInitial path initial)
    | some index => .ok ⟨region.id, index⟩

mutual

def State.resolve (path : String) (known : List String) :
    State C E A → Except Violation (Machine.State C E A)
  | .atomic label => do
    return .atomic (← label.resolve path known)
  | .composite label region states => do
    let label' ← label.resolve path known
    let region' ← region.resolve (innerPath path label.id) (ids states)
    let states' ← resolveStates (innerPath path label.id) (ids states) states
    return .composite label' region' states'

def resolveStates (path : String) (known : List String) :
    List (State C E A) → Except Violation (List (Machine.State C E A))
  | [] => return []
  | state :: rest => do
    let state' ← State.resolve path known state
    let rest' ← resolveStates path known rest
    return state' :: rest'

end

def Region.resolve (path : String) (region : Region C E A) :
    Except Violation (Machine.Region C E A) := do
  let label ← region.label.resolve path (ids region.states)
  let states ← resolveStates path (ids region.states) region.states
  return ⟨label, states⟩

def resolve (declaration : Declaration C E A) : Except Violation (Machine C E A) := do
  let regions ← declaration.regions.mapM fun region => Region.resolve region.label.id region
  return ⟨declaration.id, regions⟩

/-- The machine of a well-formed declaration, or everything wrong with the declaration. -/
def build (declaration : Declaration C E A) : Except InvalidDefinition (Machine C E A) :=
  match declaration.violations with
  | [] => declaration.resolve.mapError fun violation => ⟨[violation]⟩
  | violations => .error ⟨violations⟩

end Statechart.Declaration
