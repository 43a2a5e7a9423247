import Statechart.Proofs.Calls

/-!
# Balanced entries and exits

Where every state says, by one entry action and one exit action, where it stands, what a region
performs can be replayed on a stack: each entry pushes a state directly inside the one on top, each
exit pops the state on top, and then the stack holds the active path.
-/

namespace Statechart

variable {σ ρ : Type} {C E A S : Type}

/-- The state at the end of an index path. -/
def Region.stateAt : Region σ ρ → List Nat → Option (Node σ ρ)
  | _, [] => none
  | region, [index] => region.states[index]?
  | region, index :: next :: below => do
    let state ← region.states[index]?
    let inner ← state.nested
    Region.stateAt inner (next :: below)

/-- A state by the position of its top-level region and its index path from there. -/
structure Address where
  region : Nat
  path : List Nat
  deriving DecidableEq, Repr

inductive Crossing
  | enters (state : Address)
  | leaves (state : Address)
  deriving DecidableEq, Repr

namespace Crossing

instance : Action Crossing where
  name
    | enters state => "enters " ++ Dotted.ofIds ((state.region :: state.path).map toString)
    | leaves state => "leaves " ++ Dotted.ofIds ((state.region :: state.path).map toString)

def address : Crossing → Address
  | enters state => state
  | leaves state => state

end Crossing

/-- Every state carries one entry action and one exit action, and these tell where it stands. -/
def Declaration.Marked (crossing : A → Crossing) (declaration : Declaration C E A) : Prop :=
  ∀ (position : Nat) (region : Declaration.Region C E A) (path : List Nat)
    (state : Declaration.State C E A),
    declaration.regions[position]? = some region → region.stateAt path = some state →
      state.label.entry.map crossing = [.enters ⟨position, path⟩] ∧
        state.label.exit.map crossing = [.leaves ⟨position, path⟩]

/-- Entries and exits on the stack of the states entered in a region, the innermost on top. -/
inductive Replays (position : Nat) (region : Region σ ρ) :
    List (List Nat) → List Crossing → List (List Nat) → Prop
  | done (stack : List (List Nat)) : Replays position region stack [] stack
  | enterTop {index : Nat} {rest : List Crossing} {final : List (List Nat)} :
      index < region.states.length → Replays position region [[index]] rest final →
      Replays position region [] (.enters ⟨position, [index]⟩ :: rest) final
  | enterInside {top : List Nat} {stack final : List (List Nat)} {state : Node σ ρ}
      {inner : Region σ ρ} {index : Nat} {rest : List Crossing} :
      region.stateAt top = some state → state.nested = some inner →
      index < inner.states.length →
      Replays position region ((top ++ [index]) :: top :: stack) rest final →
      Replays position region (top :: stack) (.enters ⟨position, top ++ [index]⟩ :: rest) final
  | leave {top : List Nat} {stack final : List (List Nat)} {rest : List Crossing} :
      Replays position region stack rest final →
      Replays position region (top :: stack) (.leaves ⟨position, top⟩ :: rest) final

/-- The outermost states of a path, as many as asked for, the innermost of them first. -/
def standing (path : List Nat) : Nat → List (List Nat)
  | 0 => []
  | level + 1 => path.take (level + 1) :: standing path level

def stack (path : List Nat) : List (List Nat) :=
  standing path path.length

/-! ## Replaying along a path -/

theorem standing_congr {path path' : List Nat} {level : Nat}
    (hSame : path.take level = path'.take level) : standing path level = standing path' level := by
  induction level with
  | zero => rfl
  | succ level ih =>
    rw [standing, standing, hSame, ih]
    have hShorter := congrArg (List.take level) hSame
    simpa only [List.take_take, Nat.min_eq_left (Nat.le_succ level)] using hShorter

theorem Region.stateAt_cons {region inner : Region σ ρ} {index : Nat} {state : Node σ ρ}
    {below : List Nat} (hState : region.states[index]? = some state)
    (hInner : state.nested = some inner) (hBelow : below ≠ []) :
    region.stateAt (index :: below) = inner.stateAt below := by
  cases below with
  | nil => contradiction
  | cons next below => simp [Region.stateAt, hState, hInner]

namespace Region.FullPath

variable {region : Region σ ρ} {path : List Nat}

theorem exists_take_one (hPath : region.FullPath path) :
    ∃ index, index < region.states.length ∧ path.take 1 = [index] := by
  cases hPath with
  | atomic hState => exact ⟨_, (List.getElem?_eq_some_iff.mp hState).1, rfl⟩
  | composite hState => exact ⟨_, (List.getElem?_eq_some_iff.mp hState).1, rfl⟩

/-- Below each level but the last the path goes on inside the state at that level. -/
theorem descends (hPath : region.FullPath path) {level : Nat} (hLevel : level + 1 < path.length) :
    ∃ (state : Node σ ρ) (inner : Region σ ρ) (index : Nat),
      region.stateAt (path.take (level + 1)) = some state ∧ state.nested = some inner ∧
        index < inner.states.length ∧
        path.take (level + 2) = path.take (level + 1) ++ [index] := by
  induction hPath generalizing level with
  | atomic => simp at hLevel
  | @composite region inner index state below hState hInner hBelow ih =>
    cases level with
    | zero =>
      obtain ⟨next, hNext, hTake⟩ := hBelow.exists_take_one
      refine ⟨state, inner, next, hState, hInner, hNext, ?_⟩
      rw [List.take_succ_cons, hTake]
      rfl
    | succ level =>
      obtain ⟨last, within, next, hLast, hWithin, hNext, hTake⟩ :=
        ih (by simpa using hLevel : level + 1 < below.length)
      refine ⟨last, within, next, ?_, hWithin, hNext, ?_⟩
      · have hInside : below.take (level + 1) ≠ [] := by simp [hBelow.ne_nil]
        rw [List.take_succ_cons, stateAt_cons hState hInner hInside, hLast]
      · rw [List.take_succ_cons, hTake]
        rfl

end Region.FullPath

namespace Replays

variable {position : Nat} {region : Region σ ρ}

theorem append {stack middle final : List (List Nat)} {first rest : List Crossing}
    (hFirst : Replays position region stack first middle)
    (hRest : Replays position region middle rest final) :
    Replays position region stack (first ++ rest) final := by
  induction hFirst with
  | done => exact hRest
  | enterTop hIndex _ ih => exact .enterTop hIndex (ih hRest)
  | enterInside hState hInner hIndex _ ih => exact .enterInside hState hInner hIndex (ih hRest)
  | leave _ ih => exact .leave (ih hRest)

theorem region_eq {stack final : List (List Nat)} {crossings : List Crossing}
    (hReplays : Replays position region stack crossings final) :
    ∀ crossing ∈ crossings, crossing.address.region = position := by
  induction hReplays with
  | done => rintro _ ⟨⟩
  | enterTop _ _ ih | enterInside _ _ _ _ ih | leave _ ih =>
    exact List.forall_mem_cons.mpr ⟨rfl, ih⟩

theorem leaves (position : Nat) (region : Region σ ρ) (path : List Nat) (level count : Nat) :
    Replays position region (standing path (level + count))
      ((List.range' level count).map fun level => .leaves ⟨position, path.take (level + 1)⟩).reverse
      (standing path level) := by
  induction count with
  | zero => exact .done _
  | succ count ih =>
    rw [List.range'_concat, List.map_append, List.reverse_append, Nat.one_mul]
    exact .leave ih

theorem enters {path : List Nat} (hPath : region.FullPath path) (level count : Nat)
    (hCount : level + count = path.length) :
    Replays position region (standing path level)
      ((List.range' level count).map fun level => .enters ⟨position, path.take (level + 1)⟩)
      (stack path) := by
  induction count generalizing level with
  | zero =>
    rw [stack, ← hCount]
    exact .done _
  | succ count ih =>
    have hRest := ih (level + 1) (by omega)
    rw [List.range'_succ, List.map_cons]
    cases level with
    | zero =>
      obtain ⟨index, hIndex, hTake⟩ := hPath.exists_take_one
      rw [standing, standing, hTake] at hRest
      rw [hTake]
      exact .enterTop hIndex hRest
    | succ level =>
      obtain ⟨state, inner, index, hState, hInner, hIndex, hTake⟩ :=
        hPath.descends (by omega : level + 1 < path.length)
      rw [standing, hTake] at hRest
      rw [hTake]
      exact .enterInside hState hInner hIndex hRest

end Replays

/-! ## The marks of a region -/

/-- The marks of a region that stands at a position of its machine. -/
def Machine.Region.Marked (crossing : A → Crossing) (position : Nat)
    (region : Machine.Region C E A) : Prop :=
  ∀ path state, region.stateAt path = some state →
    state.label.entry.map crossing = [.enters ⟨position, path⟩] ∧
      state.label.exit.map crossing = [.leaves ⟨position, path⟩]

theorem Declaration.Region.DeepImage.exists_stateAt {declared : Declaration.Region C E A}
    {region : Machine.Region C E A} (hImage : Declaration.Region.DeepImage declared region)
    {path : List Nat} {state' : Machine.State C E A} (hState' : region.stateAt path = some state') :
    ∃ state, declared.stateAt path = some state ∧ state'.label.entry = state.label.entry ∧
      state'.label.exit = state.label.exit := by
  induction path generalizing declared region with
  | nil => cases hState'
  | cons index below ih =>
    cases below with
    | nil =>
      obtain ⟨state, hState, hLabel, _⟩ := hImage.exists_state hState'
      exact ⟨state, hState, hLabel.entry, hLabel.exit⟩
    | cons next below =>
      obtain ⟨outer', hOuter', hState'⟩ := Option.bind_eq_some_iff.mp hState'
      obtain ⟨inner', hInner', hState'⟩ := Option.bind_eq_some_iff.mp hState'
      obtain ⟨outer, hOuter, _, hNested⟩ := hImage.exists_state hOuter'
      obtain ⟨inner, hInner, hDeep⟩ := hNested inner' hInner'
      rw [Region.stateAt_cons hOuter hInner (List.cons_ne_nil _ _)]
      exact ih hDeep hState'

theorem Declaration.Marked.region {crossing : A → Crossing} {declaration : Declaration C E A}
    (hMarked : declaration.Marked crossing) {machine : Machine C E A}
    (hImage : declaration.Image machine) {position : Nat} {region : Machine.Region C E A}
    (hRegion : machine.regions[position]? = some region) :
    Machine.Region.Marked crossing position region := by
  intro path state' hState'
  obtain ⟨declared, hDeclared, hDeep⟩ := hImage.exists_region hRegion
  obtain ⟨state, hState, hEntry, hExit⟩ := hDeep.exists_stateAt hState'
  rw [hEntry, hExit]
  exact hMarked position declared path state hDeclared hState

theorem stateAt_of_view {region : Machine.Region C E A} {path : List Nat}
    (hPath : region.FullPath path) {level : Nat} {seat : Flat.Seat C E A}
    (hSeat : (Flat.view region path)[level]? = some seat) :
    region.stateAt (path.take (level + 1)) = some seat.state := by
  induction hPath generalizing level with
  | atomic hState _ =>
    rw [Flat.view_atomic hState, List.getElem?_singleton] at hSeat
    split at hSeat
    · cases hSeat
      subst level
      exact hState
    · cases hSeat
  | composite hState hInner hBelow ih =>
    rw [Flat.view_composite hState hInner] at hSeat
    cases level with
    | zero =>
      cases hSeat
      exact hState
    | succ level =>
      have hInside : ∀ below : List Nat, below ≠ [] → below.take (level + 1) ≠ [] := by simp
      rw [List.take_succ_cons, Region.stateAt_cons hState hInner (hInside _ hBelow.ne_nil)]
      exact ih hSeat

theorem length_view {region : Machine.Region C E A} {path : List Nat}
    (hPath : region.FullPath path) : (Flat.view region path).length = path.length := by
  have hLength := congrArg List.length (Flat.map_position_view hPath)
  rwa [List.length_map] at hLength

theorem flatMap_eq_map_range' {α β : Type} {items : List α} {image : α → List β} {mark : Nat → β}
    {first : Nat}
    (hEach : ∀ index item, items[index]? = some item → image item = [mark (first + index)]) :
    items.flatMap image = (List.range' first items.length).map mark := by
  induction items generalizing first with
  | nil => rfl
  | cons item rest ih =>
    have hRest : rest.flatMap image = (List.range' (first + 1) rest.length).map mark := by
      apply ih
      intro index other hOther
      rw [hEach (index + 1) other hOther]
      congr 2
      omega
    rw [List.flatMap_cons, hRest, hEach 0 item rfl, List.length_cons, List.range'_succ, List.map_cons]
    rfl

section Marks

variable {crossing : A → Crossing} {position : Nat} {region : Machine.Region C E A}
  {path : List Nat}

theorem map_entries_drop (hMarked : Machine.Region.Marked crossing position region)
    (hPath : region.FullPath path) (level : Nat) :
    (Flat.entries ((Flat.view region path).drop level)).map crossing =
      (List.range' level (path.length - level)).map fun level =>
        .enters ⟨position, path.take (level + 1)⟩ := by
  have hLength : ((Flat.view region path).drop level).length = path.length - level := by
    rw [List.length_drop, length_view hPath]
  rw [Flat.entries, List.map_flatMap, ← hLength]
  apply flatMap_eq_map_range'
  intro index seat hSeat
  rw [List.getElem?_drop] at hSeat
  exact (hMarked _ _ (stateAt_of_view hPath hSeat)).1

theorem map_exits_drop (hMarked : Machine.Region.Marked crossing position region)
    (hPath : region.FullPath path) (level : Nat) :
    (Flat.exits ((Flat.view region path).drop level)).map crossing =
      ((List.range' level (path.length - level)).map fun level =>
        .leaves ⟨position, path.take (level + 1)⟩).reverse := by
  have hLength : ((Flat.view region path).drop level).length = path.length - level := by
    rw [List.length_drop, length_view hPath]
  rw [Flat.exits, List.map_flatMap, List.flatMap_reverse, ← hLength]
  congr 1
  apply flatMap_eq_map_range'
  intro index seat hSeat
  rw [List.getElem?_drop] at hSeat
  rw [Function.comp_apply, (hMarked _ _ (stateAt_of_view hPath hSeat)).2]
  rfl

/-- Starting a region enters the states of its initial path, one inside the other. -/
theorem replays_startActions (hMarked : Machine.Region.Marked crossing position region)
    (hRegion : Machine.Region.Sound region) :
    Replays position region [] ((Machine.Region.startActions region).map crossing)
      (stack (Machine.Region.startPath region)) := by
  have hPath : region.FullPath (Machine.Region.startPath region) :=
    hRegion.fullPath_entryPath hRegion.bounded.initial
  have hEntries := map_entries_drop hMarked hPath 0
  rw [List.drop_zero, Flat.entries_view] at hEntries
  rw [Machine.Region.startActions, hEntries]
  exact .enters hPath 0 _ (by omega)

/-- A region on a full path leaves the states from the innermost up to some level, and then enters
those of its new path below that level. -/
theorem replays_performs [Event E] (hMarked : Machine.Region.Marked crossing position region)
    (hRegion : Machine.Region.Sound region) (hPath : region.FullPath path) (context : C) (event : E) :
    Replays position region (stack path)
      ((Machine.Region.performs context event region path).map crossing)
      (stack (Machine.Region.after context event region path)) := by
  have hAfter : region.FullPath (Machine.Region.after context event region path) :=
    hRegion.fullPath_after hPath
  obtain ⟨level, hLevel, hTake, hPerformed⟩ :=
    (Flat.steps_after context event hRegion hPath).exists_level
  rw [length_view hPath] at hLevel
  have hSame : (Machine.Region.after context event region path).take level = path.take level := by
    have hPositions := congrArg (List.map Flat.Seat.position) hTake
    rwa [List.map_take, List.map_take, Flat.map_position_view hPath,
      Flat.map_position_view hAfter] at hPositions
  have hLevel' : level ≤ (Machine.Region.after context event region path).length := by
    have hLength := congrArg List.length hSame
    rw [List.length_take, List.length_take] at hLength
    omega
  rw [Machine.Region.performs, hPerformed, List.map_append, map_exits_drop hMarked hPath,
    map_entries_drop hMarked hAfter]
  have hLeaves := Replays.leaves position region path level (path.length - level)
  rw [Nat.add_sub_cancel' hLevel, standing_congr hSame.symm] at hLeaves
  exact hLeaves.append (.enters hAfter level _ (Nat.add_sub_cancel' hLevel'))

end Marks

end Statechart
