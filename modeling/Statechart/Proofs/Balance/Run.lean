import Statechart.Proofs.Balance

/-!
# Balanced runs

What the sink of a marked machine receives is replayed one region at a time: the crossings within
a region lead from the empty stack to its active path, whatever was called. Any declaration can be
marked, so that this is not a matter of the actions that it has.
-/

namespace Statechart

variable {σ ρ : Type} {C E A S : Type}

/-! ## Marking a declaration -/

section Mark

variable {τ : Type}

mutual

def Node.mark (change : List Nat → σ → τ) (path : List Nat) : Node σ ρ → Node τ ρ
  | .atomic label => .atomic (change path label)
  | .composite label region states =>
    .composite (change path label) region (Node.markFrom change path 0 states)

/-- Marks states that stand side by side inside a path, the first one at a given position. -/
def Node.markFrom (change : List Nat → σ → τ) (around : List Nat) :
    Nat → List (Node σ ρ) → List (Node τ ρ)
  | _, [] => []
  | index, state :: rest =>
    Node.mark change (around ++ [index]) state :: Node.markFrom change around (index + 1) rest

end

def Region.mark (change : List Nat → σ → τ) (around : List Nat) (region : Region σ ρ) :
    Region τ ρ :=
  ⟨region.label, Node.markFrom change around 0 region.states⟩

variable (change : List Nat → σ → τ)

theorem Node.label_mark (path : List Nat) (state : Node σ ρ) :
    (state.mark change path).label = change path state.label := by
  cases state <;> simp only [Node.mark, Node.label]

theorem Node.nested_mark (path : List Nat) (state : Node σ ρ) :
    (state.mark change path).nested = state.nested.map (Region.mark change path) := by
  cases state <;> simp only [Node.mark, Node.nested, Option.map_none, Option.map_some, Region.mark]

theorem Node.getElem?_markFrom (around : List Nat) (first : Nat) (states : List (Node σ ρ))
    (index : Nat) : (Node.markFrom change around first states)[index]? =
      states[index]?.map (Node.mark change (around ++ [first + index])) := by
  induction states generalizing first index with
  | nil => rfl
  | cons state rest ih =>
    rw [Node.markFrom]
    cases index with
    | zero => rfl
    | succ index =>
      rw [List.getElem?_cons_succ, List.getElem?_cons_succ, ih, Nat.add_right_comm, Nat.add_assoc]

theorem Region.getElem?_mark (around : List Nat) (region : Region σ ρ) (index : Nat) :
    (region.mark change around).states[index]? =
      region.states[index]?.map (Node.mark change (around ++ [index])) := by
  rw [Region.mark, Node.getElem?_markFrom, Nat.zero_add]

theorem Region.stateAt_mark (around : List Nat) (region : Region σ ρ) (path : List Nat) :
    (region.mark change around).stateAt path =
      (region.stateAt path).map (Node.mark change (around ++ path)) := by
  induction path generalizing around region with
  | nil => rfl
  | cons index below ih =>
    cases below with
    | nil => exact Region.getElem?_mark change around region index
    | cons next below =>
      rw [Region.stateAt, Region.stateAt, Region.getElem?_mark]
      cases region.states[index]? with
      | none => rfl
      | some state =>
        simp only [Option.map_some, Option.bind_eq_bind, Option.bind_some, Node.nested_mark]
        cases state.nested with
        | none => rfl
        | some inner =>
          simp only [Option.map_some, Option.bind_some, ih, List.append_assoc,
            List.singleton_append]

end Mark

/-- Every state gets the entry and the exit that tell where it stands, in place of its own. -/
def Declaration.withMarks (declaration : Declaration C E A) : Declaration C E Crossing :=
  ⟨declaration.id, declaration.regions.zipIdx.map fun (region, position) =>
    region.mark (fun path label =>
      ⟨label.id, [.enters ⟨position, path⟩], [.leaves ⟨position, path⟩], label.transitions⟩) []⟩

theorem Declaration.marked_withMarks (declaration : Declaration C E A) :
    declaration.withMarks.Marked id := by
  intro position region path state hRegion hState
  rw [Declaration.withMarks, List.getElem?_map, List.getElem?_zipIdx, Nat.zero_add, Option.map_map,
    Option.map_eq_some_iff] at hRegion
  obtain ⟨declared, _, rfl⟩ := hRegion
  rw [Function.comp_apply, Region.stateAt_mark, Option.map_eq_some_iff] at hState
  obtain ⟨before, _, rfl⟩ := hState
  rw [Node.label_mark]
  exact ⟨rfl, rfl⟩

/-! ## The stack of an execution -/

namespace Crossing

def within (position : Nat) (crossings : List Crossing) : List Crossing :=
  crossings.filter fun crossing => crossing.address.region = position

theorem within_eq_nil {position : Nat} {crossings : List Crossing}
    (hElsewhere : ∀ crossing ∈ crossings, crossing.address.region ≠ position) :
    within position crossings = [] := by
  simpa [within] using hElsewhere

theorem within_eq_self {position : Nat} {crossings : List Crossing}
    (hHere : ∀ crossing ∈ crossings, crossing.address.region = position) :
    within position crossings = crossings := by
  simpa [within] using hHere

theorem within_append (position : Nat) (first second : List Crossing) :
    within position (first ++ second) = within position first ++ within position second :=
  List.filter_append ..

/-- Of crossings listed region by region, those within a region are the ones of its list. -/
theorem within_flatten {lists : List (List Crossing)} {first position : Nat}
    (hLists : ∀ index list, lists[index]? = some list →
      ∀ crossing ∈ list, crossing.address.region = first + index)
    {list : List Crossing} (hList : lists[position]? = some list) :
    within (first + position) lists.flatten = list := by
  induction lists generalizing first position with
  | nil => cases hList
  | cons head rest ih =>
    have hHead := hLists 0 head rfl
    have hRest : ∀ index list, rest[index]? = some list →
        ∀ crossing ∈ list, crossing.address.region = first + 1 + index := by
      intro index list hList crossing hCrossing
      rw [hLists (index + 1) list hList crossing hCrossing]
      omega
    rw [List.flatten_cons, within_append]
    cases position with
    | zero =>
      cases hList
      rw [within_eq_self hHead, within_eq_nil, List.append_nil]
      intro crossing hCrossing
      obtain ⟨list, hList, hCrossing⟩ := List.mem_flatten.mp hCrossing
      obtain ⟨index, hIndex⟩ := List.mem_iff_getElem?.mp hList
      rw [hRest index list hIndex crossing hCrossing]
      omega
    | succ position =>
      rw [within_eq_nil, List.nil_append, ← Nat.add_assoc, Nat.add_right_comm]
      · exact ih hRest hList
      · intro crossing hCrossing
        rw [hHead crossing hCrossing]
        omega

end Crossing

namespace Execution

/-- The active path of a region, empty before the start. -/
def activePath (execution : Execution C E A S) (position : Nat) : List Nat :=
  (execution.active.bind fun active => active[position]?).getD []

/-- Replaying what the sink received leads to the active path, in each region. -/
structure Tracked (crossing : A → Crossing) (execution : Execution C E A (Recorder A S)) :
    Prop where
  full : execution.Full
  marked : ∀ (position : Nat) (region : Machine.Region C E A),
    execution.machine.regions[position]? = some region →
      Machine.Region.Marked crossing position region
  replays : ∀ (position : Nat) (region : Machine.Region C E A),
    execution.machine.regions[position]? = some region →
      Replays position region [] (Crossing.within position (execution.sink.performed.map crossing))
        (stack (execution.activePath position))

/-- A call in which each region performs a list of actions of its own, to be replayed from its
stack. -/
structure Advances (crossing : A → Crossing) (execution after : Execution C E A (Recorder A S))
    (lists : List (List A)) : Prop where
  machine : after.machine = execution.machine
  performed : after.sink.performed = execution.sink.performed ++ lists.flatten
  length : lists.length = execution.machine.regions.length
  replays : ∀ (position : Nat) (region : Machine.Region C E A) (actions : List A),
    execution.machine.regions[position]? = some region → lists[position]? = some actions →
      Replays position region (stack (execution.activePath position)) (actions.map crossing)
        (stack (after.activePath position))

theorem Tracked.advance {crossing : A → Crossing} {execution after : Execution C E A (Recorder A S)}
    (hTracked : Tracked crossing execution) {lists : List (List A)}
    (hAdvances : Advances crossing execution after lists) (hFull : after.Full) :
    Tracked crossing after := by
  refine ⟨hFull, hAdvances.machine ▸ hTracked.marked, ?_⟩
  intro position region hRegion
  rw [hAdvances.machine] at hRegion
  have hPlace : ∀ index list, (lists.map (·.map crossing))[index]? = some list →
      ∀ mark ∈ list, mark.address.region = 0 + index := by
    intro index list hList
    rw [List.getElem?_map, Option.map_eq_some_iff] at hList
    obtain ⟨actions, hActions, rfl⟩ := hList
    obtain ⟨hIndex, _⟩ := List.getElem?_eq_some_iff.mp hActions
    rw [hAdvances.length] at hIndex
    rw [Nat.zero_add]
    exact (hAdvances.replays index _ actions (List.getElem?_eq_getElem hIndex) hActions).region_eq
  obtain ⟨hIndex, _⟩ := List.getElem?_eq_some_iff.mp hRegion
  rw [← hAdvances.length] at hIndex
  have hActions := List.getElem?_eq_getElem hIndex
  have hWithin := Crossing.within_flatten hPlace
    (by rw [List.getElem?_map, hActions]; rfl : _ = some (lists[position].map crossing))
  rw [Nat.zero_add] at hWithin
  rw [hAdvances.performed, List.map_append, Crossing.within_append, List.map_flatten, hWithin]
  exact (hTracked.replays position region hRegion).append
    (hAdvances.replays position region _ hRegion hActions)

section Calls

variable [Sink A S] {crossing : A → Crossing}
  {execution : Execution C E A (Recorder A S)} {outcome : Outcome C E A (Recorder A S)}

theorem Tracked.advances_of_started (hTracked : Tracked crossing execution)
    (hFresh : execution.active = none) (hStarted : Started execution outcome) :
    Advances crossing execution outcome.execution
      (execution.machine.regions.map Machine.Region.startActions) := by
  refine ⟨hStarted.machine, ?_, List.length_map _, ?_⟩
  · rw [hStarted.sink, Flat.performed_performAll, List.flatMap_def]
  · intro position region actions hRegion hActions
    rw [List.getElem?_map, hRegion] at hActions
    cases hActions
    rw [activePath, activePath, hFresh, hStarted.active, Option.bind_some, List.getElem?_map,
      hRegion]
    exact replays_startActions (hTracked.marked position region hRegion)
      (hTracked.full.sound region (List.mem_of_getElem? hRegion))

variable [Action A]

theorem Tracked.advances_of_processed [Event E] (hTracked : Tracked crossing execution)
    {paths : List (List Nat)} (hActive : execution.active = some paths) {event : E}
    (hProcessed : Processed execution paths event outcome) :
    Advances crossing execution outcome.execution (List.zipWith
      (Machine.Region.performs execution.context event) execution.machine.regions paths) := by
  have hPaths := hTracked.full.active paths hActive
  refine ⟨hProcessed.machine, ?_, ?_, ?_⟩
  · rw [hProcessed.sink, Flat.performed_performAll]
  · rw [List.length_zipWith, hPaths.length_eq, Nat.min_self]
  · intro position region actions hRegion hActions
    obtain ⟨path, hPath, hFullPath⟩ := exists_getElem?_of_forall₂ hPaths hRegion
    rw [List.getElem?_zipWith, hRegion, hPath] at hActions
    cases hActions
    rw [activePath, activePath, hActive, hProcessed.active, Option.bind_some, Option.bind_some,
      List.getElem?_zipWith, hRegion, hPath]
    exact replays_performs (hTracked.marked position region hRegion)
      (hTracked.full.sound region (List.mem_of_getElem? hRegion)) hFullPath _ _

theorem Tracked.call [Event E] (hTracked : Tracked crossing execution) (call : Call E) :
    Tracked crossing (execution.call call) := by
  have hFull := hTracked.full.call call
  cases call with
  | start =>
    cases hActive : execution.active with
    | some active =>
      rw [Execution.call, start, hActive]
      exact hTracked
    | none =>
      obtain ⟨outcome, hOutcome, hStarted⟩ := exists_started hActive
      rw [Execution.call, hOutcome] at hFull ⊢
      exact hTracked.advance (hTracked.advances_of_started hActive hStarted) hFull
  | process event time =>
    cases hActive : execution.active with
    | none =>
      rw [Execution.call, process, hActive]
      exact hTracked
    | some paths =>
      obtain ⟨outcome, hOutcome, hProcessed⟩ := exists_processed hActive event time
      rw [Execution.call, hOutcome] at hFull ⊢
      exact hTracked.advance (hTracked.advances_of_processed hActive hProcessed) hFull
  | accepts | configuration => exact hTracked
  | withHistory limit => exact ⟨hFull, hTracked.marked, hTracked.replays⟩

theorem Tracked.calls [Event E] (hTracked : Tracked crossing execution) (calls : List (Call E)) :
    Tracked crossing (execution.calls calls) := by
  induction calls generalizing execution with
  | nil => exact hTracked
  | cons call rest ih => exact ih (hTracked.call call)

/-- Whatever is called on a machine whose states are marked, what the sink received of a region can
be replayed, and the stack is then the active path: a full one, or empty before the start. -/
theorem replays_of_calls [Event E] {declaration : Declaration C E A} {machine : Machine C E A}
    (hBuild : declaration.build = .ok machine) (hMarked : declaration.Marked crossing) (context : C)
    (sink : S) (calls : List (Call E)) {execution : Execution C E A (Recorder A S)}
    (hCalls : (Execution.new machine context ⟨sink, []⟩).calls calls = execution) {position : Nat}
    {region : Machine.Region C E A} (hRegion : machine.regions[position]? = some region) :
    Replays position region [] (Crossing.within position (execution.sink.performed.map crossing))
        (stack (execution.activePath position)) ∧
      (execution.isStarted = true → region.FullPath (execution.activePath position)) ∧
      (execution.isStarted = false → execution.activePath position = []) := by
  have hImage := Declaration.image_of_build hBuild
  have hNew : Tracked crossing (Execution.new machine context (⟨sink, []⟩ : Recorder A S)) :=
    ⟨.new (Declaration.sound_of_build hBuild) context _,
      fun _ _ hRegion => hMarked.region hImage hRegion, fun _ _ _ => .done _⟩
  have hTracked := hCalls ▸ hNew.calls calls
  have hMachine : execution.machine = machine := hCalls ▸ machine_calls _ calls
  rw [← hMachine] at hRegion
  refine ⟨hTracked.replays position region hRegion, ?_, ?_⟩
  · intro hStarted
    obtain ⟨paths, hActive⟩ := Option.isSome_iff_exists.mp hStarted
    obtain ⟨path, hPath, hFullPath⟩ :=
      exists_getElem?_of_forall₂ (hTracked.full.active paths hActive) hRegion
    rw [activePath, hActive, Option.bind_some, hPath]
    exact hFullPath
  · intro hFresh
    rw [isStarted, Option.isSome_eq_false_iff, Option.isNone_iff_eq_none] at hFresh
    rw [activePath, hFresh]
    rfl

end Calls

open MarkIV in
theorem policy_replays_removed_pot : Policy.declaration.withMarks.Marked id ∧
    ∃ machine, Policy.declaration.withMarks.build = .ok machine ∧
      ∃ (region : Machine.Region Unit MarkIV.Event Crossing)
        (execution : Execution Unit MarkIV.Event Crossing (Recorder Crossing Unit)),
        machine.regions[0]? = some region ∧
        (Execution.new machine () ⟨(), []⟩).calls [.process .potRemoved ⟨0, 0⟩, .start,
          .process (.brewClicked false true) ⟨1, 0⟩, .start, .process .potRemoved ⟨2, 0⟩,
          .process .reservoirEmptied ⟨3, 0⟩] = execution ∧
        Crossing.within 0 execution.sink.performed = [.enters ⟨0, [0]⟩, .leaves ⟨0, [0]⟩,
          .enters ⟨0, [1]⟩, .enters ⟨0, [1, 0]⟩, .leaves ⟨0, [1, 0]⟩, .enters ⟨0, [1, 1]⟩,
          .leaves ⟨0, [1, 1]⟩, .leaves ⟨0, [1]⟩, .enters ⟨0, [2]⟩] ∧
        Replays 0 region [] (Crossing.within 0 execution.sink.performed) [[2]] ∧
        region.FullPath [2] := by
  refine ⟨Policy.declaration.marked_withMarks, _, rfl, _, _, rfl, rfl, rfl, ?_⟩
  obtain ⟨hReplays, hFull, _⟩ := replays_of_calls
    (show Policy.declaration.withMarks.build = .ok _ from rfl) Policy.declaration.marked_withMarks ()
    () [.process .potRemoved ⟨0, 0⟩, .start, .process (.brewClicked false true) ⟨1, 0⟩, .start,
      .process .potRemoved ⟨2, 0⟩, .process .reservoirEmptied ⟨3, 0⟩] rfl
    (show (_ : List _)[0]? = some _ from rfl)
  rw [List.map_id] at hReplays
  exact ⟨hReplays, hFull rfl⟩

end Execution

end Statechart
