/-!
# Charts

The shape shared by a machine as it is declared and as it is run: parallel regions of states,
where a composite state holds a region of its own. The labels differ: `σ` is what a state says
of itself and `ρ` what a region says of itself. A position in a chart is a list of indices,
outermost first.
-/

namespace Statechart

inductive Node (σ ρ : Type)
  | atomic (label : σ)
  | composite (label : σ) (region : ρ) (states : List (Node σ ρ))

structure Region (σ ρ : Type) where
  label : ρ
  states : List (Node σ ρ)

structure Chart (σ ρ : Type) where
  id : String
  regions : List (Region σ ρ)

variable {σ ρ : Type}

namespace Node

def label : Node σ ρ → σ
  | atomic label => label
  | composite label _ _ => label

def nested : Node σ ρ → Option (Region σ ρ)
  | atomic _ => none
  | composite _ region states => some ⟨region, states⟩

def children : Node σ ρ → List (Node σ ρ)
  | atomic _ => []
  | composite _ _ states => states

def isComposite : Node σ ρ → Bool
  | atomic _ => false
  | composite .. => true

def modifyLabel (change : σ → σ) : Node σ ρ → Node σ ρ
  | atomic label => atomic (change label)
  | composite label region states => composite (change label) region states

def withNested (node : Node σ ρ) (region : Region σ ρ) : Node σ ρ :=
  composite node.label region.label region.states

/-- The states met along an index path, outermost first. It ends where the path leaves the
chart. -/
def along : List (Node σ ρ) → List Nat → List (Node σ ρ)
  | _, [] => []
  | states, i :: path =>
    match states[i]? with
    | none => []
    | some state => state :: along state.children path

end Node

end Statechart
