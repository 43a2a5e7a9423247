import Statechart.Proofs.Acceptance
import Statechart.Proofs.Balance.Run

/-!
# Inside a composite state

A path that goes through a composite state goes on as a path of the region inside it. As long as
that region moves, it moves as it would alone and the states around it stay where they are. Where
it does not move, a transition is taken at the composite state or above it, or none at all; and a
transition that enters the composite state enters the region inside from its initial state.
-/

namespace Statechart

variable {σ ρ : Type} {C E A S : Type}

/-! ## Paths through a state -/

/-- An index path leads from the top of a region to a state. -/
inductive Region.Reaches : Region σ ρ → List Nat → Node σ ρ → Prop
  | here {region : Region σ ρ} {index : Nat} {state : Node σ ρ} :
      region.states[index]? = some state → Reaches region [index] state
  | inside {region next : Region σ ρ} {index : Nat} {outer state : Node σ ρ} {path : List Nat} :
      region.states[index]? = some outer → outer.nested = some next → Reaches next path state →
      Reaches region (index :: path) state

theorem Region.stateAt_eq_some_iff {region : Region σ ρ} {path : List Nat} {state : Node σ ρ} :
    region.stateAt path = some state ↔ region.Reaches path state := by
  constructor
  · intro hState
    induction path generalizing region with
    | nil => cases hState
    | cons index below ih =>
      cases below with
      | nil => exact .here hState
      | cons next below =>
        obtain ⟨outer, hOuter, hState⟩ := Option.bind_eq_some_iff.mp hState
        obtain ⟨inner, hInner, hState⟩ := Option.bind_eq_some_iff.mp hState
        exact .inside hOuter hInner (ih hState)
  · intro hReaches
    induction hReaches with
    | here hState => exact hState
    | inside hOuter hInner hReaches ih =>
      rw [Region.stateAt_cons hOuter hInner (by cases hReaches <;> exact List.cons_ne_nil _ _)]
      exact ih

theorem Region.Encloses.trans {region next inner : Region σ ρ} (hNext : region.Encloses next)
    (hInner : next.Encloses inner) : region.Encloses inner := by
  induction hNext with
  | here => exact hInner
  | inside hState hNested _ ih => exact .inside hState hNested (ih hInner)

namespace Region.Reaches

variable {region inner : Region σ ρ} {path below : List Nat} {state : Node σ ρ}

theorem ne_nil (hReaches : region.Reaches path state) : path ≠ [] := by
  cases hReaches <;> exact List.cons_ne_nil _ _

theorem encloses (hReaches : region.Reaches path state) (hInner : state.nested = some inner) :
    region.Encloses inner := by
  induction hReaches with
  | here hState => exact .inside (List.mem_of_getElem? hState) hInner (.here inner)
  | inside hOuter hNext _ ih => exact .inside (List.mem_of_getElem? hOuter) hNext (ih hInner)

/-- A full path through a composite state goes on as a full path of the region inside. -/
theorem fullPath_below (hReaches : region.Reaches path state) (hInner : state.nested = some inner)
    (hPath : region.FullPath (path ++ below)) : inner.FullPath below := by
  induction hReaches with
  | here hState =>
    cases hPath with
    | atomic hState' hAtomic =>
      cases hState.symm.trans hState'
      cases hAtomic.symm.trans hInner
    | composite hState' hInner' hBelow =>
      cases hState.symm.trans hState'
      cases hInner.symm.trans hInner'
      exact hBelow
  | @inside region next index outer state path hOuter hNext hReaches ih =>
    rw [List.cons_append] at hPath
    generalize hWhole : path ++ below = whole at hPath
    cases hPath with
    | atomic hState' hAtomic =>
      cases hOuter.symm.trans hState'
      cases hAtomic.symm.trans hNext
    | composite hState' hInner' hBelow =>
      cases hOuter.symm.trans hState'
      cases hNext.symm.trans hInner'
      exact ih hInner (hWhole ▸ hBelow)

end Region.Reaches

namespace Flat

section View

variable {region inner : Machine.Region C E A} {path : List Nat} {state : Machine.State C E A}

theorem view_append (hReaches : region.Reaches path state) (hInner : state.nested = some inner)
    (below : List Nat) : view region (path ++ below) = view region path ++ view inner below := by
  induction hReaches with
  | here hState =>
    rw [view_atomic hState]
    exact view_composite hState hInner below
  | inside hOuter hNext _ ih =>
    rw [List.cons_append, view_composite hOuter hNext, view_composite hOuter hNext, ih hInner,
      List.cons_append]

theorem length_view_of_reaches (hReaches : region.Reaches path state) :
    (view region path).length = path.length := by
  induction hReaches with
  | here hState => rw [view_atomic hState]; rfl
  | inside hOuter hNext _ ih =>
    rw [view_composite hOuter hNext, List.length_cons, List.length_cons, ih]

theorem exists_view_eq_append (hReaches : region.Reaches path state) :
    ∃ index, path = path.dropLast ++ [index] ∧
      view region path = view region path.dropLast ++ [⟨index, state⟩] := by
  induction hReaches with
  | @here region index state hState =>
    refine ⟨index, rfl, ?_⟩
    rw [view_atomic hState]
    rfl
  | @inside region next index outer state path hOuter hNext hReaches ih =>
    obtain ⟨last, hPath, hView⟩ := ih
    refine ⟨last, ?_, ?_⟩
    · rw [List.dropLast_cons_of_ne_nil hReaches.ne_nil, List.cons_append, ← hPath]
    · rw [List.dropLast_cons_of_ne_nil hReaches.ne_nil, view_composite hOuter hNext,
        view_composite hOuter hNext, hView, List.cons_append]

end View

/-! ## The level of a transition -/

/-- The innermost active state with an open candidate stands at this level. -/
structure Decides [Event E] (context : C) (event : E) (seats : List (Seat C E A)) (level : Nat) :
    Prop where
  chooses : ∃ seat candidate, seats[level]? = some seat ∧
    Machine.State.choice context event seat.state = some candidate
  deeper : ∀ (deeper : Nat) (other : Seat C E A), level < deeper → seats[deeper]? = some other →
    Machine.State.choice context event other.state = none

/-- A step from a path that leaves the states from a level inwards and enters others there: the
states above the level stay where they are. -/
structure Turns [Event E] (context : C) (event : E) (region : Machine.Region C E A)
    (path : List Nat) (level : Nat) : Prop where
  decides : Decides context event (view region path) level
  above : (Machine.Region.after context event region path).take level = path.take level
  performs : Machine.Region.performs context event region path =
    exits ((view region path).drop level) ++
      entries ((view region (Machine.Region.after context event region path)).drop level)
  enters : ∃ holding target,
    Enters holding target
      ((view region (Machine.Region.after context event region path)).drop level)

section Level

variable [Event E] {context : C} {event : E} {region inner : Machine.Region C E A}
  {path below : List Nat} {state : Machine.State C E A}

theorem Decides.not_ignores {seats : List (Seat C E A)} {level : Nat}
    (hDecides : Decides context event seats level) : ¬ Ignores context event seats := by
  intro hIgnores
  obtain ⟨seat, candidate, hSeat, hChoice⟩ := hDecides.chooses
  cases (hIgnores seat (List.mem_of_getElem? hSeat)).symm.trans hChoice

theorem Decides.unique {seats : List (Seat C E A)} {level level' : Nat}
    (hFirst : Decides context event seats level) (hSecond : Decides context event seats level') :
    level = level' := by
  obtain ⟨seat, candidate, hSeat, hChoice⟩ := hFirst.chooses
  obtain ⟨seat', candidate', hSeat', hChoice'⟩ := hSecond.chooses
  rcases Nat.lt_trichotomy level level' with hLess | hEq | hMore
  · cases (hFirst.deeper level' seat' hLess hSeat').symm.trans hChoice'
  · exact hEq
  · cases (hSecond.deeper level seat hMore hSeat).symm.trans hChoice

/-- Where some state further in has an open candidate, no level before it decides. -/
theorem Decides.length_le {outer rest : List (Seat C E A)} {level : Nat}
    (hDecides : Decides context event (outer ++ rest) level)
    (hRest : ¬ Ignores context event rest) : outer.length ≤ level := by
  by_contra hLevel
  apply hRest
  intro seat hSeat
  obtain ⟨index, hIndex⟩ := List.mem_iff_getElem?.mp hSeat
  refine hDecides.deeper (outer.length + index) seat (by omega) ?_
  rw [List.getElem?_append_right (Nat.le_add_right _ _), Nat.add_sub_cancel_left]
  exact hIndex

/-- Where no state further in has an open candidate, the deciding level comes before. -/
theorem Decides.lt_length_of_ignores {outer rest : List (Seat C E A)} {level : Nat}
    (hDecides : Decides context event (outer ++ rest) level)
    (hRest : Ignores context event rest) : level < outer.length := by
  obtain ⟨seat, candidate, hSeat, hChoice⟩ := hDecides.chooses
  by_contra hLevel
  rw [List.getElem?_append_right (by omega)] at hSeat
  cases (hRest seat (List.mem_of_getElem? hSeat)).symm.trans hChoice

/-- A region on a full path ignores an event, or turns at some level. -/
theorem ignores_or_turns (hRegion : Machine.Region.Sound region) (hPath : region.FullPath path)
    (context : C) (event : E) :
    (Ignores context event (view region path) ∧
      Machine.Region.after context event region path = path ∧
      Machine.Region.performs context event region path = []) ∨
    ∃ level, Turns context event region path level := by
  have hAfter : region.FullPath (Machine.Region.after context event region path) :=
    hRegion.fullPath_after hPath
  have hStep := steps_after context event hRegion hPath
  generalize hNext : view region (Machine.Region.after context event region path) = next at hStep
  generalize hDone : Effect.actions (Machine.Region.react context event region path).effects =
    performed at hStep
  rcases hStep with hTakes | ⟨hIgnores, rfl, rfl⟩
  · right
    cases hTakes with
    | @intro level seat candidate holding entered hSeat hChoice hDeeper _ hEnters =>
      obtain ⟨hLevel, _⟩ := List.getElem?_eq_some_iff.mp hSeat
      have hLength : ((view region path).take level).length = level :=
        List.length_take_of_le (Nat.le_of_lt hLevel)
      have hDrop : (view region (Machine.Region.after context event region path)).drop level =
          entered := by rw [hNext, List.drop_left' hLength]
      refine ⟨level, ⟨⟨seat, candidate, hSeat, hChoice⟩, hDeeper⟩, ?_, ?_, ?_⟩
      · have hPositions := congrArg (fun seats => (seats.take level).map Seat.position) hNext
        simp only [List.take_left' hLength] at hPositions
        rwa [List.map_take, map_position_view hAfter, List.map_take, map_position_view hPath]
          at hPositions
      · rw [hDrop]
        exact hDone
      · exact ⟨holding, candidate.target, hDrop ▸ hEnters⟩
  · left
    refine ⟨hIgnores, ?_, hDone⟩
    have hPositions := congrArg (List.map Seat.position) hNext
    rwa [map_position_view hAfter, map_position_view hPath] at hPositions

theorem turns_of_decides (hRegion : Machine.Region.Sound region) (hPath : region.FullPath path)
    {level : Nat} (hDecides : Decides context event (view region path) level) :
    Turns context event region path level := by
  rcases ignores_or_turns hRegion hPath context event with ⟨hIgnores, _⟩ | ⟨level', hTurns⟩
  · exact absurd hIgnores hDecides.not_ignores
  · exact hDecides.unique hTurns.decides ▸ hTurns

end Level

/-! ## Entering a composite state -/

section Enter

variable {region inner : Machine.Region C E A} {path below : List Nat}
  {state : Machine.State C E A}

theorem Enters.inside {position : Nat} {seat : Seat C E A} {front rest : List (Seat C E A)}
    (hEnters : Enters region position (front ++ seat :: rest))
    (hInner : seat.state.nested = some inner) : Enters inner inner.label.initial rest := by
  induction front generalizing region position with
  | nil =>
    obtain ⟨_, _, ⟨hAtomic, _⟩ | ⟨inner', hInner', hRest⟩⟩ := Enters.cons_iff.mp hEnters
    · cases hAtomic.symm.trans hInner
    · cases hInner.symm.trans hInner'
      exact hRest
  | cons outer front ih =>
    obtain ⟨_, _, ⟨_, hNil⟩ | ⟨next, _, hRest⟩⟩ := Enters.cons_iff.mp hEnters
    · simp at hNil
    · exact ih hRest

theorem view_drop_eq (hReaches : region.Reaches path state) (hInner : state.nested = some inner)
    {level : Nat} (hLevel : level < path.length) (below : List Nat) : ∃ index,
      (view region (path ++ below)).drop level =
        (view region path.dropLast).drop level ++ ⟨index, state⟩ :: view inner below := by
  obtain ⟨index, hPath, hView⟩ := exists_view_eq_append hReaches
  have hLength := length_view_of_reaches hReaches
  rw [hView, List.length_append, List.length_singleton] at hLength
  refine ⟨index, ?_⟩
  rw [view_append hReaches hInner, hView, List.append_assoc, List.singleton_append,
    List.drop_append_of_le_length (by omega)]

/-- What is entered from a level at or above a composite state ends with the composite state and
the start of the region inside. -/
theorem below_eq_startPath (hInside : Machine.Region.Sound inner)
    (hReaches : region.Reaches path state) (hInner : state.nested = some inner)
    (hBelow : inner.FullPath below) {level : Nat} (hLevel : level < path.length)
    {holding : Machine.Region C E A} {target : Nat}
    (hEnters : Enters holding target ((view region (path ++ below)).drop level)) :
    below = Machine.Region.startPath inner ∧
      entries ((view region (path ++ below)).drop level) =
        entries ((view region path.dropLast).drop level) ++ state.label.entry ++
          Machine.Region.startActions inner := by
  obtain ⟨index, hDrop⟩ := view_drop_eq hReaches hInner hLevel below
  rw [hDrop] at hEnters ⊢
  have hStart : Enters inner inner.label.initial
      (view inner (Machine.Region.startPath inner)) := enters_view hInside hInside.bounded.initial
  have hSeats : view inner below = view inner (Machine.Region.startPath inner) :=
    (hEnters.inside hInner).unique hStart
  have hPath : inner.FullPath (Machine.Region.startPath inner) :=
    hInside.fullPath_entryPath hInside.bounded.initial
  constructor
  · have hPositions := congrArg (List.map Seat.position) hSeats
    rwa [map_position_view hBelow, map_position_view hPath] at hPositions
  · rw [hSeats, entries, List.flatMap_append, List.flatMap_cons, List.append_assoc,
      Machine.Region.startActions, ← entries_view]
    rfl

end Enter

end Flat

/-! ## Moving below a composite state -/

namespace Machine

variable {region inner : Region C E A} {path below : List Nat} {state : State C E A}

theorem Region.Sound.of_reaches (hRegion : Region.Sound region)
    (hReaches : region.Reaches path state) (hInner : state.nested = some inner) : Region.Sound inner := by
  induction hReaches with
  | here hState => exact hRegion.nested (List.mem_of_getElem? hState) hInner
  | inside hOuter hNext _ ih =>
    exact ih (hRegion.nested (List.mem_of_getElem? hOuter) hNext) hInner

variable [Event E] {context : C} {event : E}

theorem react_of_reaches_moved (hReaches : region.Reaches path state)
    (hInner : state.nested = some inner) {after : List Nat}
    (hMoved : (Region.react context event inner below).path = some after) :
    Region.react context event region (path ++ below) =
      ⟨(Region.react context event inner below).effects, some (path ++ after)⟩ := by
  induction hReaches with
  | here hState => exact react_of_inner_moved hState hInner hMoved
  | @inside region next index outer state path hOuter hNext _ ih =>
    have hNextMoved := congrArg Reaction.path (ih hInner)
    rw [List.cons_append, react_of_inner_moved hOuter hNext hNextMoved, ih hInner]
    rfl

theorem ignores_below_of_not_accepts (hBelow : inner.FullPath below)
    (hAccepts : Region.accepts context event inner below = false) :
    Flat.Ignores context event (Flat.view inner below) ∧
      Region.after context event inner below = below := by
  rw [Region.accepts_eq_moved hBelow, Reaction.moved, Option.isSome_eq_false_iff,
    Option.isNone_iff_eq_none] at hAccepts
  refine ⟨(Flat.ignores_of_react_eq_none hBelow hAccepts).1, ?_⟩
  rw [Region.after, hAccepts, Option.getD_none]

/-- An event that the region inside accepts moves that region and nothing around it. -/
theorem after_of_accepts (hInside : Region.Sound inner) (hReaches : region.Reaches path state)
    (hInner : state.nested = some inner) (hBelow : inner.FullPath below)
    (hAccepts : Region.accepts context event inner below = true) :
    Region.after context event region (path ++ below) =
        path ++ Region.after context event inner below ∧
      Region.performs context event region (path ++ below) =
        Region.performs context event inner below ∧
      ∀ level, Flat.Decides context event (Flat.view region (path ++ below)) level →
        path.length ≤ level := by
  rw [Region.accepts_eq_moved hBelow, Reaction.moved] at hAccepts
  obtain ⟨after, hMoved⟩ := Option.isSome_iff_exists.mp hAccepts
  have hReact := react_of_reaches_moved hReaches hInner hMoved
  refine ⟨?_, ?_, ?_⟩
  · rw [Region.after, Region.after, hReact, hMoved]
    rfl
  · rw [Region.performs, Region.performs, hReact]
  · intro level hDecides
    rw [Flat.view_append hReaches hInner] at hDecides
    rw [← Flat.length_view_of_reaches hReaches]
    exact hDecides.length_le (Flat.takes_of_react_eq_some hInside hBelow hMoved).not_ignores

end Machine

end Statechart
