import Statechart.Proofs.Image
import Statechart.Reaction

/-!
# Indices in range

Every index that a built machine keeps, an initial state or the target of a candidate, stands for
a state of the same region. Therefore entering a state always ends at an atomic one.
-/

namespace Statechart

variable {C E A : Type}

namespace Machine

/-- The indices that a region keeps stand for its own states. -/
structure Region.Bounded (region : Region C E A) : Prop where
  initial : region.label.initial < region.states.length
  targets : ∀ state ∈ region.states, ∀ kind, ∀ candidate ∈ state.label.candidates kind,
    candidate.target < region.states.length

def Region.Sound (region : Region C E A) : Prop :=
  ∀ inner, region.Encloses inner → Region.Bounded inner

theorem Region.Sound.bounded {region : Region C E A} (hRegion : Region.Sound region) :
    Region.Bounded region :=
  hRegion region (.here region)

theorem Region.Sound.nested {region inner : Region C E A} {state : State C E A}
    (hRegion : Region.Sound region) (hState : state ∈ region.states)
    (hInner : state.nested = some inner) : Region.Sound inner :=
  fun next hNext => hRegion next (.inside hState hInner hNext)

end Machine

/-! ## Bounds of an image -/

namespace Declaration

theorem Region.Image.bounded {declared : Region C E A} {region : Machine.Region C E A}
    (hImage : Region.Image declared region) : Machine.Region.Bounded region := by
  have hSiblings : (siblings region).length = region.states.length := List.length_map _
  constructor
  · obtain ⟨id, _, hInitial⟩ := hImage.initial
    have hStands := (hInitial region.label.initial).mpr rfl
    exact hSiblings ▸ (List.getElem?_eq_some_iff.mp hStands).1
  · intro state' hState' kind candidate hCandidate
    obtain ⟨index, hIndex, rfl⟩ := List.getElem_of_mem hState'
    obtain ⟨hLabel, _⟩ := hImage.states index _ _
      (List.getElem?_eq_getElem (hImage.length ▸ hIndex)) (List.getElem?_eq_getElem hIndex)
    obtain ⟨position, hPosition, rfl⟩ := List.getElem_of_mem hCandidate
    have hCandidates := hLabel.candidates kind
    have hTarget := (hCandidates.get (hCandidates.length_eq ▸ hPosition) hPosition).target
    exact hSiblings ▸ (List.getElem?_eq_some_iff.mp hTarget).1

theorem Region.DeepImage.exists_state {declared : Region C E A} {region : Machine.Region C E A}
    (hImage : Region.DeepImage declared region) {index : Nat} {state' : Machine.State C E A}
    (hState' : region.states[index]? = some state') :
    ∃ state, declared.states[index]? = some state ∧
      state.label.Image (siblings region) state'.label ∧
      ∀ next', state'.nested = some next' →
        ∃ next, state.nested = some next ∧ Region.DeepImage next next' := by
  have hHere := hImage declared region (.here _ _)
  obtain ⟨hIndex, _⟩ := List.getElem?_eq_some_iff.mp hState'
  rw [hHere.length] at hIndex
  have hState := List.getElem?_eq_getElem hIndex
  obtain ⟨hLabel, hComposite⟩ := hHere.states index _ _ hState hState'
  refine ⟨_, hState, hLabel, ?_⟩
  intro next' hNext'
  rw [Node.isComposite_eq_isSome_nested, Node.isComposite_eq_isSome_nested, hNext'] at hComposite
  obtain ⟨next, hNext⟩ := Option.isSome_iff_exists.mp hComposite.symm
  exact ⟨next, hNext, fun i i' h => hImage i i' (.inside hState hState' hNext hNext' h)⟩

theorem Region.DeepImage.siblings_eq {declared : Region C E A} {region : Machine.Region C E A}
    (hImage : Region.DeepImage declared region) : siblings region = ids declared.states := by
  have hHere := hImage declared region (.here _ _)
  refine List.ext_getElem? fun index => ?_
  rw [siblings, ids, List.getElem?_map, List.getElem?_map]
  cases hState' : region.states[index]? with
  | none =>
    rw [List.getElem?_eq_none_iff, hHere.length] at hState'
    rw [List.getElem?_eq_none hState']
    rfl
  | some state' =>
    obtain ⟨state, hState, hLabel, _⟩ := hImage.exists_state hState'
    rw [hState]
    exact congrArg some hLabel.id

theorem Region.DeepImage.exists_samePlace {declared : Region C E A}
    {region inner' : Machine.Region C E A} (hImage : Region.DeepImage declared region)
    (hInner : region.Encloses inner') : ∃ inner, Region.SamePlace declared region inner inner' := by
  induction hInner generalizing declared with
  | here => exact ⟨declared, .here _ _⟩
  | inside hState' hNext' _ ih =>
    obtain ⟨index, hAt'⟩ := List.mem_iff_getElem?.mp hState'
    obtain ⟨state, hAt, _, hNested⟩ := hImage.exists_state hAt'
    obtain ⟨next, hNext, hDeep⟩ := hNested _ hNext'
    obtain ⟨inner, hPlace⟩ := ih hDeep
    exact ⟨inner, .inside hAt hAt' hNext hNext' hPlace⟩

theorem Region.DeepImage.sound {declared : Region C E A} {region : Machine.Region C E A}
    (hImage : Region.DeepImage declared region) : Machine.Region.Sound region := by
  intro inner' hInner
  obtain ⟨inner, hPlace⟩ := hImage.exists_samePlace hInner
  exact (hImage inner inner' hPlace).bounded

theorem image_of_build {declaration : Declaration C E A} {machine : Machine C E A}
    (hBuild : declaration.build = .ok machine) : declaration.Image machine := by
  by_cases hViolations : declaration.violations = []
  · obtain ⟨built, hResolve, hImage⟩ := exists_resolve_image hViolations
    rw [build_of_violations_eq_nil hViolations hResolve] at hBuild
    cases hBuild
    exact hImage
  · rw [build_of_violations_ne_nil hViolations] at hBuild
    cases hBuild

theorem Image.exists_region {declaration : Declaration C E A} {machine : Machine C E A}
    (hImage : declaration.Image machine) {index : Nat} {region' : Machine.Region C E A}
    (hRegion' : machine.regions[index]? = some region') :
    ∃ region, declaration.regions[index]? = some region ∧ Region.DeepImage region region' := by
  obtain ⟨hIndex, _⟩ := List.getElem?_eq_some_iff.mp hRegion'
  rw [hImage.length] at hIndex
  have hRegion := List.getElem?_eq_getElem hIndex
  exact ⟨_, hRegion,
    fun inner inner' hPlace => hImage.regions inner inner' ⟨index, _, _, hRegion, hRegion', hPlace⟩⟩

theorem sound_of_build {declaration : Declaration C E A} {machine : Machine C E A}
    (hBuild : declaration.build = .ok machine) :
    ∀ region ∈ machine.regions, Machine.Region.Sound region := by
  intro region' hRegion'
  obtain ⟨index, hAt'⟩ := List.mem_iff_getElem?.mp hRegion'
  obtain ⟨_, _, hDeep⟩ := (image_of_build hBuild).exists_region hAt'
  exact hDeep.sound

end Declaration

/-! ## Entering -/

namespace Machine

theorem initialPathAt_eq {states : List (State C E A)} {index : Nat} {state : State C E A}
    (hState : states[index]? = some state) :
    initialPathAt states index = State.initialPath state := by
  induction states generalizing index with
  | nil => simp at hState
  | cons first rest ih =>
    cases index with
    | zero =>
      cases hState
      rw [initialPathAt]
    | succ index =>
      rw [initialPathAt]
      exact ih (by simpa using hState)

theorem State.initialPath_of_eq_none {state : State C E A} (hAtomic : state.nested = none) :
    State.initialPath state = [] := by
  cases state with
  | atomic => rw [State.initialPath]
  | composite => cases hAtomic

theorem State.initialPath_of_eq_some {state : State C E A} {inner : Region C E A}
    (hInner : state.nested = some inner) :
    State.initialPath state = Region.entryPath inner inner.label.initial := by
  cases state with
  | atomic => cases hInner
  | composite =>
    cases hInner
    rw [State.initialPath]
    rfl

theorem Region.entryPath_of_atomic {region : Region C E A} {index : Nat} {state : State C E A}
    (hState : region.states[index]? = some state) (hAtomic : state.nested = none) :
    Region.entryPath region index = [index] := by
  rw [Region.entryPath, initialPathAt_eq hState, State.initialPath_of_eq_none hAtomic]

theorem Region.entryPath_of_composite {region inner : Region C E A} {index : Nat}
    {state : State C E A} (hState : region.states[index]? = some state)
    (hInner : state.nested = some inner) :
    Region.entryPath region index = index :: Region.entryPath inner inner.label.initial := by
  rw [Region.entryPath, initialPathAt_eq hState, State.initialPath_of_eq_some hInner]

section Along

variable {region inner : Region C E A} {index : Nat} {state : State C E A}

theorem Region.entries_atomic (hState : region.states[index]? = some state) :
    Region.entries region [index] = state.label.entry := by
  simp [Region.entries, Node.along, hState]

theorem Region.exits_atomic (hState : region.states[index]? = some state) :
    Region.exits region [index] = state.label.exit := by
  simp [Region.exits, Node.along, hState]

theorem Region.names_atomic (hState : region.states[index]? = some state) :
    Region.names region [index] = [state.label.id] := by
  simp [Region.names, Node.along, hState]

theorem Region.entries_composite (hState : region.states[index]? = some state)
    (hInner : state.nested = some inner) (below : List Nat) :
    Region.entries region (index :: below) = state.label.entry ++ Region.entries inner below := by
  rw [Region.entries, Node.along_cons hState, Node.children_of_nested_eq_some hInner]
  rfl

theorem Region.exits_composite (hState : region.states[index]? = some state)
    (hInner : state.nested = some inner) (below : List Nat) :
    Region.exits region (index :: below) = Region.exits inner below ++ state.label.exit := by
  rw [Region.exits, Node.along_cons hState, Node.children_of_nested_eq_some hInner]
  simp [Region.exits]

theorem Region.names_composite (hState : region.states[index]? = some state)
    (hInner : state.nested = some inner) (below : List Nat) :
    Region.names region (index :: below) = state.label.id :: Region.names inner below := by
  rw [Region.names, Node.along_cons hState, Node.children_of_nested_eq_some hInner]
  rfl

end Along

/-- Entering a state ends at an atomic one. -/
theorem Region.Sound.fullPath_entryPath {region : Region C E A} (hRegion : Region.Sound region)
    {index : Nat} (hIndex : index < region.states.length) :
    region.FullPath (Region.entryPath region index) := by
  induction region using Statechart.Region.induction generalizing index with
  | step region ih =>
    have hState := List.getElem?_eq_getElem hIndex
    have hMember := List.getElem_mem hIndex
    cases hNested : region.states[index].nested with
    | none =>
      rw [Region.entryPath_of_atomic hState hNested]
      exact .atomic hState hNested
    | some inner =>
      have hInner := hRegion.nested hMember hNested
      rw [Region.entryPath_of_composite hState hNested]
      exact .composite hState hNested (ih _ hMember inner hNested hInner hInner.bounded.initial)

end Machine

end Statechart
