import Statechart.Machine

/-!
# Reactions

What a machine does when its states are entered and when an event reaches a region, as a pure
function of the active path. The innermost active state is asked first; a state whose guards all
say no, or which declares nothing for the event, leaves the event to the state around it. The
first open candidate is taken: the active states are left from the innermost up to the one that
declares it, then its target is entered together with the initial states below, outermost first.
-/

namespace Statechart

inductive Effect (A : Type)
  /-- A state has candidates for the event, and every guard said no. -/
  | refused (region state event : String)
  | moved (region source target event : String)
  | fired (action : A)

namespace Effect

variable {A : Type}

def action? : Effect A → Option A
  | fired action => some action
  | _ => none

def actions (effects : List (Effect A)) : List A :=
  effects.filterMap action?

end Effect

/-- What a region does on an event, and where it then is if it took a transition. -/
structure Reaction (A : Type) where
  effects : List (Effect A)
  path : Option (List Nat)

namespace Reaction

variable {A : Type}

def idle : Reaction A :=
  ⟨[], none⟩

def moved (reaction : Reaction A) : Bool :=
  reaction.path.isSome

end Reaction

namespace Machine

variable {C E A : Type}

inductive Choice (C E : Type)
  | undeclared
  | refused
  | taken (candidate : Candidate C E)

def choose (context : C) (event : E) (candidates : List (Candidate C E)) : Choice C E :=
  match candidates with
  | [] => .undeclared
  | _ :: _ =>
    match candidates.find? fun candidate => candidate.isOpen context event with
    | none => .refused
    | some candidate => .taken candidate

mutual

def State.initialPath : State C E A → List Nat
  | .atomic _ => []
  | .composite _ region states => region.initial :: initialPathAt states region.initial

def initialPathAt : List (State C E A) → Nat → List Nat
  | [], _ => []
  | state :: _, 0 => State.initialPath state
  | _ :: rest, i + 1 => initialPathAt rest i

end

namespace Region

def entryPath (region : Region C E A) (index : Nat) : List Nat :=
  index :: initialPathAt region.states index

def entries (region : Region C E A) (path : List Nat) : List A :=
  (Node.along region.states path).flatMap fun state => state.label.entry

def exits (region : Region C E A) (path : List Nat) : List A :=
  (Node.along region.states path).reverse.flatMap fun state => state.label.exit

def names (region : Region C E A) (path : List Nat) : List String :=
  (Node.along region.states path).map fun state => state.label.id

def take (region : Region C E A) (kind source : String) (path : List Nat)
    (candidate : Candidate C E) : Reaction A :=
  let entered := entryPath region candidate.target
  ⟨.moved region.label.id source candidate.targetId kind ::
    (exits region path ++ entries region entered).map .fired, some entered⟩

end Region

variable [Event E]

/-- What a region does on an event while the states along a path are active. -/
def Region.react (context : C) (event : E) : Region C E A → List Nat → Reaction A
  | _, [] => .idle
  | region, index :: below =>
    match region.states[index]? with
    | none => .idle
    | some state =>
      let kind := Event.kind event
      let inner : Reaction A := match state.nested with
        | none => .idle
        | some nested => Region.react context event nested below
      match inner.path with
      | some path => ⟨inner.effects, some (index :: path)⟩
      | none =>
        match choose context event (state.label.candidates kind) with
        | .undeclared => inner
        | .refused =>
          ⟨inner.effects ++ [.refused region.label.id state.label.id kind], none⟩
        | .taken candidate =>
          let outer := Region.take region kind state.label.id (index :: below) candidate
          ⟨inner.effects ++ outer.effects, outer.path⟩

def Region.accepts (context : C) (event : E) : Region C E A → List Nat → Bool
  | _, [] => false
  | region, index :: below =>
    match region.states[index]? with
    | none => false
    | some state =>
      (match state.nested with
        | none => false
        | some nested => Region.accepts context event nested below) ||
      (state.label.candidates (Event.kind event)).any fun candidate =>
        candidate.isOpen context event

end Machine

end Statechart
