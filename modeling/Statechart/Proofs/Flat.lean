import Mathlib.Data.List.Chain
import Statechart.Proofs.Reach

/-!
# Reactions without recursion

What a region does on an event, said of the list of its active states at once. The innermost
active state with an open candidate decides: the states from it inwards are left, and the target is
entered with the initial states below it. Nothing here follows the way in which reactions are
computed; every reaction of a region on a full path is the one step described here.
-/

namespace Statechart.Flat

variable {C E A S : Type}

structure Seat (C E A : Type) where
  position : Nat
  state : Machine.State C E A

def entries (seats : List (Seat C E A)) : List A :=
  seats.flatMap fun seat => seat.state.label.entry

def exits (seats : List (Seat C E A)) : List A :=
  seats.reverse.flatMap fun seat => seat.state.label.exit

/-- The second seat is that of the initial state inside the first. -/
def Leads (outer inner : Seat C E A) : Prop :=
  ∃ region, outer.state.nested = some region ∧ inner.position = region.label.initial ∧
    region.states[inner.position]? = some inner.state

/-- The state at a position of a region and the chain of initial states below it, down to an
atomic one. -/
structure Enters (region : Machine.Region C E A) (position : Nat) (seats : List (Seat C E A)) :
    Prop where
  first : ∃ state, region.states[position]? = some state ∧ seats.head? = some ⟨position, state⟩
  chain : seats.IsChain Leads
  atomic : ∃ last, seats.getLast? = some last ∧ last.state.nested = none

/-- The region that directly holds the state at a level. -/
def holder (region : Machine.Region C E A) (seats : List (Seat C E A)) :
    Nat → Option (Machine.Region C E A)
  | 0 => some region
  | level + 1 => seats[level]?.bind fun seat => seat.state.nested

/-- Seen from outside, the first level of the inner region is held by the first seat. -/
theorem holder_cons {seat : Seat C E A} {inner : Machine.Region C E A}
    (hInner : seat.state.nested = some inner) (region : Machine.Region C E A)
    (seats : List (Seat C E A)) (level : Nat) :
    holder region (seat :: seats) (level + 1) = holder inner seats level := by
  cases level with
  | zero => exact hInner
  | succ level => rfl

section Step

variable [Event E] (context : C) (event : E) (region : Machine.Region C E A)
  (seats : List (Seat C E A))

/-- The first open candidate of the innermost state that has one is taken. -/
inductive Takes : List (Seat C E A) → List A → Prop
  | intro {level : Nat} {seat : Seat C E A} {candidate : Machine.Candidate C E}
      {holding : Machine.Region C E A} {entered : List (Seat C E A)} :
      seats[level]? = some seat →
      Machine.State.choice context event seat.state = some candidate →
      (∀ (deeper : Nat) (other : Seat C E A), level < deeper → seats[deeper]? = some other →
        Machine.State.choice context event other.state = none) →
      holder region seats level = some holding → Enters holding candidate.target entered →
      Takes (seats.take level ++ entered) (exits (seats.drop level) ++ entries entered)

def Ignores : Prop :=
  ∀ seat ∈ seats, Machine.State.choice context event seat.state = none

def Steps (after : List (Seat C E A)) (performed : List A) : Prop :=
  Takes context event region seats after performed ∨
    Ignores context event seats ∧ after = seats ∧ performed = []

end Step

/-! ## There is one step -/

theorem Enters.cons_iff {region : Machine.Region C E A} {position : Nat} {seat : Seat C E A}
    {rest : List (Seat C E A)} :
    Enters region position (seat :: rest) ↔
      seat.position = position ∧ region.states[position]? = some seat.state ∧
        (seat.state.nested = none ∧ rest = [] ∨
          ∃ inner, seat.state.nested = some inner ∧ Enters inner inner.label.initial rest) := by
  constructor
  · rintro ⟨⟨state, hState, hFirst⟩, hChain, last, hLast, hAtomic⟩
    cases hFirst
    refine ⟨rfl, hState, ?_⟩
    cases rest with
    | nil =>
      cases hLast
      exact Or.inl ⟨hAtomic, rfl⟩
    | cons next rest =>
      rw [List.isChain_cons_cons] at hChain
      obtain ⟨⟨inner, hInner, hPosition, hNext⟩, hChain⟩ := hChain
      refine Or.inr ⟨inner, hInner, ⟨next.state, hPosition ▸ hNext, ?_⟩, hChain, last, ?_, hAtomic⟩
      · rw [List.head?_cons, ← hPosition]
      · rwa [List.getLast?_cons_cons] at hLast
  · rintro ⟨hPosition, hState, ⟨hAtomic, rfl⟩ | ⟨inner, hInner, hEnters⟩⟩
    · exact ⟨⟨seat.state, hState, by rw [← hPosition]; rfl⟩, .singleton _, seat, rfl, hAtomic⟩
    · obtain ⟨⟨state, hNext, hFirst⟩, hChain, last, hLast, hAtomic⟩ := hEnters
      cases rest with
      | nil => cases hFirst
      | cons next rest =>
        cases hFirst
        refine ⟨⟨seat.state, hState, by rw [← hPosition]; rfl⟩, ?_, last, ?_, hAtomic⟩
        · exact .cons_cons ⟨inner, hInner, rfl, hNext⟩ hChain
        · rwa [List.getLast?_cons_cons]

theorem Enters.exists_eq_cons {region : Machine.Region C E A} {position : Nat}
    {seats : List (Seat C E A)} (hEnters : Enters region position seats) :
    ∃ state inside, region.states[position]? = some state ∧
      seats = ⟨position, state⟩ :: inside := by
  obtain ⟨state, hState, hFirst⟩ := hEnters.first
  obtain ⟨inside, hSeats⟩ := List.head?_eq_some_iff.mp hFirst
  exact ⟨state, inside, hState, hSeats⟩

theorem Enters.unique {region : Machine.Region C E A} {position : Nat}
    {first second : List (Seat C E A)} (hFirst : Enters region position first)
    (hSecond : Enters region position second) : first = second := by
  induction first generalizing region position second with
  | nil =>
    obtain ⟨_, _, h⟩ := hFirst.first
    cases h
  | cons seat rest ih =>
    cases second with
    | nil =>
      obtain ⟨_, _, h⟩ := hSecond.first
      cases h
    | cons seat' rest' =>
      obtain ⟨hPosition, hState, hRest⟩ := Enters.cons_iff.mp hFirst
      obtain ⟨hPosition', hState', hRest'⟩ := Enters.cons_iff.mp hSecond
      obtain rfl : seat = seat' := by
        obtain ⟨position, state⟩ := seat
        obtain ⟨position', state'⟩ := seat'
        cases hPosition
        cases hPosition'
        cases hState.symm.trans hState'
        rfl
      rcases hRest with ⟨hAtomic, rfl⟩ | ⟨inner, hInner, hRest⟩ <;>
        rcases hRest' with ⟨hAtomic', rfl⟩ | ⟨inner', hInner', hRest'⟩
      · rfl
      · cases hAtomic.symm.trans hInner'
      · cases hAtomic'.symm.trans hInner
      · cases hInner.symm.trans hInner'
        rw [ih hRest hRest']

section Unique

variable [Event E] {context : C} {event : E} {region : Machine.Region C E A}
  {seats after after' : List (Seat C E A)} {performed performed' : List A}

theorem Takes.unique (hFirst : Takes context event region seats after performed)
    (hSecond : Takes context event region seats after' performed') :
    after = after' ∧ performed = performed' := by
  cases hFirst with
  | @intro level seat candidate holding entered hSeat hChoice hDeeper hHolder hEnters =>
    cases hSecond with
    | @intro level' seat' candidate' holding' entered' hSeat' hChoice' hDeeper' hHolder' hEnters' =>
      -- Of two levels the deeper one has an open candidate, against the choice of the other.
      obtain rfl : level = level' := by
        rcases Nat.lt_trichotomy level level' with hLess | hEq | hMore
        · cases (hDeeper level' seat' hLess hSeat').symm.trans hChoice'
        · exact hEq
        · cases (hDeeper' level seat hMore hSeat).symm.trans hChoice
      cases hSeat.symm.trans hSeat'
      cases hChoice.symm.trans hChoice'
      cases hHolder.symm.trans hHolder'
      cases hEnters.unique hEnters'
      exact ⟨rfl, rfl⟩

theorem Takes.not_ignores (hTakes : Takes context event region seats after performed) :
    ¬ Ignores context event seats := by
  intro hIgnores
  cases hTakes with
  | intro hSeat hChoice _ _ _ =>
    cases (hIgnores _ (List.mem_of_getElem? hSeat)).symm.trans hChoice

theorem Steps.unique (hFirst : Steps context event region seats after performed)
    (hSecond : Steps context event region seats after' performed') :
    after = after' ∧ performed = performed' := by
  rcases hFirst with hFirst | ⟨hIgnores, rfl, rfl⟩
  · rcases hSecond with hSecond | ⟨hIgnores, _, _⟩
    · exact hFirst.unique hSecond
    · exact absurd hIgnores hFirst.not_ignores
  · rcases hSecond with hSecond | ⟨_, rfl, rfl⟩
    · exact absurd hIgnores hSecond.not_ignores
    · exact ⟨rfl, rfl⟩

end Unique

/-- Up to some level nothing changes; from there on the states are left and others are entered. -/
theorem Steps.exists_level [Event E] {context : C} {event : E} {region : Machine.Region C E A}
    {seats after : List (Seat C E A)} {performed : List A}
    (hSteps : Steps context event region seats after performed) :
    ∃ level, level ≤ seats.length ∧ after.take level = seats.take level ∧
      performed = exits (seats.drop level) ++ entries (after.drop level) := by
  rcases hSteps with hTakes | ⟨_, rfl, rfl⟩
  · cases hTakes with
    | @intro level seat candidate holding entered hSeat _ _ _ _ =>
      obtain ⟨hLevel, _⟩ := List.getElem?_eq_some_iff.mp hSeat
      have hLength : (seats.take level).length = level :=
        List.length_take_of_le (Nat.le_of_lt hLevel)
      refine ⟨level, Nat.le_of_lt hLevel, ?_, ?_⟩
      · rw [List.take_left' hLength]
      · rw [List.drop_left' hLength]
  · refine ⟨after.length, Nat.le_refl _, rfl, ?_⟩
    rw [List.drop_length]
    rfl

/-! ## Every reaction is that step -/

def view (region : Machine.Region C E A) (path : List Nat) : List (Seat C E A) :=
  List.zipWith Seat.mk path (Node.along region.states path)

section View

variable {region inner : Machine.Region C E A} {index : Nat} {state : Machine.State C E A}

theorem view_atomic (hState : region.states[index]? = some state) :
    view region [index] = [⟨index, state⟩] := by
  simp [view, Node.along, hState]

theorem view_composite (hState : region.states[index]? = some state)
    (hInner : state.nested = some inner) (below : List Nat) :
    view region (index :: below) = ⟨index, state⟩ :: view inner below := by
  rw [view, Node.along_cons hState, Node.children_of_nested_eq_some hInner]
  rfl

theorem map_state_view (region : Machine.Region C E A) (path : List Nat) :
    (view region path).map Seat.state = Node.along region.states path := by
  rw [view, List.map_zipWith]
  generalize region.states = states
  induction path generalizing states with
  | nil => rfl
  | cons index below ih =>
    rw [Node.along]
    cases states[index]? with
    | none => rfl
    | some state => rw [List.zipWith_cons_cons, ih]

theorem map_position_view {path : List Nat} (hPath : region.FullPath path) :
    (view region path).map Seat.position = path := by
  induction hPath with
  | atomic hState _ => rw [view_atomic hState]; rfl
  | composite hState hInner _ ih =>
    rw [view_composite hState hInner, List.map_cons, ih]

theorem entries_view (region : Machine.Region C E A) (path : List Nat) :
    entries (view region path) = Machine.Region.entries region path := by
  rw [Machine.Region.entries, ← map_state_view, List.flatMap_map]
  rfl

theorem exits_view (region : Machine.Region C E A) (path : List Nat) :
    exits (view region path) = Machine.Region.exits region path := by
  rw [Machine.Region.exits, ← map_state_view, ← List.map_reverse, List.flatMap_map]
  rfl

theorem names_view (region : Machine.Region C E A) (path : List Nat) :
    (view region path).map (fun seat => seat.state.label.id) =
      Machine.Region.names region path := by
  rw [Machine.Region.names, ← map_state_view, List.map_map]
  rfl

theorem enters_view {region : Machine.Region C E A} (hRegion : Machine.Region.Sound region)
    {index : Nat} (hIndex : index < region.states.length) :
    Enters region index (view region (Machine.Region.entryPath region index)) := by
  induction region using Region.induction generalizing index with
  | step region ih =>
    have hState := List.getElem?_eq_getElem hIndex
    have hMember := List.getElem_mem hIndex
    cases hNested : region.states[index].nested with
    | none =>
      rw [Machine.Region.entryPath_of_atomic hState hNested, view_atomic hState]
      exact Enters.cons_iff.mpr ⟨rfl, hState, Or.inl ⟨hNested, rfl⟩⟩
    | some inner =>
      have hInner := hRegion.nested hMember hNested
      rw [Machine.Region.entryPath_of_composite hState hNested, view_composite hState hNested]
      exact Enters.cons_iff.mpr ⟨rfl, hState, Or.inr ⟨inner, hNested,
        ih _ hMember inner hNested hInner hInner.bounded.initial⟩⟩

end View

section React

variable [Event E] {context : C} {event : E} {region inner : Machine.Region C E A}

theorem Takes.cons {seat : Seat C E A} (hInner : seat.state.nested = some inner)
    {seats after : List (Seat C E A)} {performed : List A}
    (hTakes : Takes context event inner seats after performed) :
    Takes context event region (seat :: seats) (seat :: after) performed := by
  cases hTakes with
  | @intro level source candidate holding entered hSeat hChoice hDeeper hHolder hEnters =>
    have hHolder' : holder region (seat :: seats) (level + 1) = some holding :=
      (holder_cons hInner region seats level).trans hHolder
    have hSeat' : (seat :: seats)[level + 1]? = some source := hSeat
    refine .intro hSeat' hChoice ?_ hHolder' hEnters
    intro deeper other hLess hOther
    cases deeper with
    | zero => omega
    | succ deeper => exact hDeeper deeper other (by omega) hOther

theorem Takes.outermost (hRegion : Machine.Region.Sound region) {index : Nat}
    {state : Machine.State C E A} (hState : region.states[index]? = some state)
    {candidate : Machine.Candidate C E}
    (hChoice : Machine.State.choice context event state = some candidate)
    {rest : List (Seat C E A)} (hRest : Ignores context event rest) (path : List Nat)
    (hView : view region path = ⟨index, state⟩ :: rest) :
    Takes context event region (view region path)
      (view region (Machine.Region.entryPath region candidate.target))
      (Effect.actions
        (Machine.Region.take region (Event.kind event) state.label.id path candidate).effects) := by
  have hTarget : candidate.target < region.states.length :=
    hRegion.bounded.targets state (List.mem_of_getElem? hState) _ candidate
      (Machine.State.choice_mem hChoice)
  have hSeat : (view region path)[0]? = some ⟨index, state⟩ := by rw [hView]; rfl
  have hActions : Effect.actions
      (Machine.Region.take region (Event.kind event) state.label.id path candidate).effects =
        exits ((view region path).drop 0) ++
          entries (view region (Machine.Region.entryPath region candidate.target)) := by
    rw [List.drop_zero, exits_view, entries_view]
    exact Effect.actions_map_fired _
  rw [hActions]
  refine .intro hSeat hChoice ?_ rfl (enters_view hRegion hTarget)
  intro deeper other hLess hOther
  cases deeper with
  | zero => omega
  | succ deeper =>
    rw [hView, List.getElem?_cons_succ] at hOther
    exact hRest other (List.mem_of_getElem? hOther)

theorem ignores_of_react_eq_none {path : List Nat} (hPath : region.FullPath path)
    (hIdle : (Machine.Region.react context event region path).path = none) :
    Ignores context event (view region path) ∧
      Effect.actions (Machine.Region.react context event region path).effects = [] := by
  induction hPath with
  | atomic hState hAtomic =>
    rw [Machine.react_of_atomic hState hAtomic] at hIdle ⊢
    have hChoice := Machine.choice_of_ownReaction_eq_none hIdle
    rw [view_atomic hState]
    exact ⟨by simpa [Ignores] using hChoice, (Machine.ownReaction_of_choice_eq_none hChoice).2⟩
  | @composite region inner index state below hState hInner _ ih =>
    cases hBelow : (Machine.Region.react context event inner below).path with
    | some path =>
      rw [Machine.react_of_inner_moved hState hInner hBelow] at hIdle
      cases hIdle
    | none =>
      rw [Machine.react_of_inner_idle hState hInner hBelow] at hIdle ⊢
      have hChoice := Machine.choice_of_ownReaction_eq_none hIdle
      obtain ⟨hIgnores, hActions⟩ := ih hBelow
      rw [view_composite hState hInner, Effect.actions_append, hActions,
        (Machine.ownReaction_of_choice_eq_none hChoice).2]
      refine ⟨?_, rfl⟩
      intro seat hSeat
      rcases List.mem_cons.mp hSeat with rfl | hSeat
      · exact hChoice
      · exact hIgnores seat hSeat

theorem takes_of_react_eq_some (hRegion : Machine.Region.Sound region) {path after : List Nat}
    (hPath : region.FullPath path)
    (hMoved : (Machine.Region.react context event region path).path = some after) :
    Takes context event region (view region path) (view region after)
      (Effect.actions (Machine.Region.react context event region path).effects) := by
  induction hPath generalizing after with
  | atomic hState hAtomic =>
    rw [Machine.react_of_atomic hState hAtomic] at hMoved ⊢
    obtain ⟨candidate, hChoice⟩ := Machine.exists_choice_of_ownReaction_eq_some hMoved
    rw [Machine.ownReaction_of_choice_eq_some hChoice] at hMoved ⊢
    cases hMoved
    exact .outermost hRegion hState hChoice (by rintro _ ⟨⟩) _ (view_atomic hState)
  | @composite region inner index state below hState hInner hBelow ih =>
    cases hInnerPath : (Machine.Region.react context event inner below).path with
    | some path =>
      rw [Machine.react_of_inner_moved hState hInner hInnerPath] at hMoved ⊢
      cases hMoved
      rw [view_composite hState hInner, view_composite hState hInner]
      exact .cons hInner (ih (hRegion.nested (List.mem_of_getElem? hState) hInner) hInnerPath)
    | none =>
      rw [Machine.react_of_inner_idle hState hInner hInnerPath] at hMoved ⊢
      obtain ⟨candidate, hChoice⟩ := Machine.exists_choice_of_ownReaction_eq_some hMoved
      obtain ⟨hIgnores, hActions⟩ := ignores_of_react_eq_none hBelow hInnerPath
      rw [Machine.ownReaction_of_choice_eq_some hChoice] at hMoved ⊢
      cases hMoved
      rw [Effect.actions_append, hActions, List.nil_append]
      exact .outermost hRegion hState hChoice hIgnores _ (view_composite hState hInner below)

variable (context event) in
/-- A region on a full path reacts by the step of its active states. -/
theorem steps_after (hRegion : Machine.Region.Sound region) {path : List Nat}
    (hPath : region.FullPath path) :
    Steps context event region (view region path)
      (view region (Machine.Region.after context event region path))
      (Effect.actions (Machine.Region.react context event region path).effects) := by
  rw [Machine.Region.after]
  cases hMoved : (Machine.Region.react context event region path).path with
  | some after => exact Or.inl (takes_of_react_eq_some hRegion hPath hMoved)
  | none =>
    obtain ⟨hIgnores, hActions⟩ := ignores_of_react_eq_none hPath hMoved
    exact Or.inr ⟨hIgnores, rfl, hActions⟩

end React

end Statechart.Flat
