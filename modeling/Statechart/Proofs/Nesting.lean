import Mathlib.Data.List.Forall2
import Statechart.Chart

/-!
# Nesting

The regions of a chart at every depth, and the index paths that lead from the top of a region
down to an atomic state. Everything proved of all regions of a chart is proved by one induction:
what holds of a region as soon as it holds of the regions inside its states holds of every region.
What is said of the states of all regions can be computed, as these states can be listed.
-/

namespace Statechart

variable {σ ρ σ' ρ' : Type}

theorem forall₂_getElem? {α β : Type} {related : α → β → Prop} {left : List α} {right : List β}
    (h : List.Forall₂ related left right) {index : Nat} {a : α} {b : β}
    (hLeft : left[index]? = some a) (hRight : right[index]? = some b) : related a b := by
  obtain ⟨hIndex, rfl⟩ := List.getElem?_eq_some_iff.mp hLeft
  obtain ⟨hIndex', rfl⟩ := List.getElem?_eq_some_iff.mp hRight
  exact h.get hIndex hIndex'

theorem exists_getElem?_of_forall₂ {α β : Type} {related : α → β → Prop} {left : List α}
    {right : List β} (h : List.Forall₂ related left right) {index : Nat} {a : α}
    (hLeft : left[index]? = some a) : ∃ b, right[index]? = some b ∧ related a b := by
  obtain ⟨hIndex, _⟩ := List.getElem?_eq_some_iff.mp hLeft
  have hRight := List.getElem?_eq_getElem (h.length_eq ▸ hIndex)
  exact ⟨_, hRight, forall₂_getElem? h hLeft hRight⟩

theorem exists_mem_of_forall₂ {α β : Type} {related : α → β → Prop} {left : List α}
    {right : List β} (h : List.Forall₂ related left right) {a : α} (hLeft : a ∈ left) :
    ∃ b ∈ right, related a b := by
  obtain ⟨index, hIndex⟩ := List.mem_iff_getElem?.mp hLeft
  obtain ⟨b, hRight, hRelated⟩ := exists_getElem?_of_forall₂ h hIndex
  exact ⟨b, List.mem_of_getElem? hRight, hRelated⟩

theorem map_eq_of_forall₂ {α β γ : Type} {related : α → β → Prop} {left : List α} {right : List β}
    (h : List.Forall₂ related left right) {shown : α → γ} {shown' : β → γ}
    (hShown : ∀ a b, related a b → shown a = shown' b) : left.map shown = right.map shown' := by
  induction h with
  | nil => rfl
  | cons hFirst _ ih => exact congrArg₂ List.cons (hShown _ _ hFirst) ih

namespace Node

theorem children_of_nested_eq_some {state : Node σ ρ} {inner : Region σ ρ}
    (hInner : state.nested = some inner) : state.children = inner.states := by
  cases state with
  | atomic => cases hInner
  | composite => cases hInner; rfl

theorem isComposite_eq_isSome_nested (state : Node σ ρ) :
    state.isComposite = state.nested.isSome := by
  cases state <;> rfl

theorem along_cons {states : List (Node σ ρ)} {index : Nat} {state : Node σ ρ}
    (hState : states[index]? = some state) (below : List Nat) :
    along states (index :: below) = state :: along state.children below := by
  rw [along, hState]

end Node

namespace Region

theorem sizeOf_nested_lt [SizeOf σ] [SizeOf ρ] {states : List (Node σ ρ)} {state : Node σ ρ}
    {inner : Region σ ρ} (hState : state ∈ states) (hInner : state.nested = some inner) :
    sizeOf inner.states < sizeOf states := by
  have hMember := List.sizeOf_lt_of_mem hState
  cases state with
  | atomic => cases hInner
  | composite label region children =>
    cases hInner
    simp only [Node.composite.sizeOf_spec] at hMember
    change sizeOf children < sizeOf states
    omega

/-- What passes from the regions inside its states to a region holds of every region. -/
theorem induction {motive : Region σ ρ → Prop}
    (step : ∀ region, (∀ state ∈ region.states, ∀ inner, state.nested = some inner → motive inner) →
      motive region)
    (region : Region σ ρ) : motive region := by
  -- The region inside a composite state is no subterm of it, but its states are.
  induction hSize : sizeOf region.states using Nat.strongRecOn generalizing region with
  | ind size ih =>
    apply step
    intro state hState inner hInner
    exact ih _ (hSize ▸ sizeOf_nested_lt hState hInner) inner rfl

inductive Encloses : Region σ ρ → Region σ ρ → Prop
  | here (region : Region σ ρ) : Encloses region region
  | inside {region next inner : Region σ ρ} {state : Node σ ρ} : state ∈ region.states →
      state.nested = some next → Encloses next inner → Encloses region inner

/-- Two regions stand at the same place below two others: the states that lead down to them
have the same positions. -/
inductive SamePlace : Region σ ρ → Region σ' ρ' → Region σ ρ → Region σ' ρ' → Prop
  | here (left : Region σ ρ) (right : Region σ' ρ') : SamePlace left right left right
  | inside {left next inner : Region σ ρ} {right next' inner' : Region σ' ρ'} {index : Nat}
      {state : Node σ ρ} {state' : Node σ' ρ'} :
      left.states[index]? = some state → right.states[index]? = some state' →
      state.nested = some next → state'.nested = some next' →
      SamePlace next next' inner inner' → SamePlace left right inner inner'

theorem forall_encloses_iff {property : Region σ ρ → Prop} (region : Region σ ρ) :
    (∀ inner, region.Encloses inner → property inner) ↔
      property region ∧ ∀ state ∈ region.states, ∀ next, state.nested = some next →
        ∀ inner, next.Encloses inner → property inner := by
  constructor
  · intro h
    exact ⟨h region (.here region),
      fun state hState next hNext inner hInner => h inner (.inside hState hNext hInner)⟩
  · rintro ⟨hHere, hInside⟩ inner hInner
    cases hInner with
    | here => exact hHere
    | inside hState hNext hInner => exact hInside _ hState _ hNext inner hInner

/-- An index path from the top of a region down to an atomic state. -/
inductive FullPath : Region σ ρ → List Nat → Prop
  | atomic {region : Region σ ρ} {index : Nat} {state : Node σ ρ} :
      region.states[index]? = some state → state.nested = none → FullPath region [index]
  | composite {region inner : Region σ ρ} {index : Nat} {state : Node σ ρ} {below : List Nat} :
      region.states[index]? = some state → state.nested = some inner →
      FullPath inner below → FullPath region (index :: below)

namespace FullPath

variable {region : Region σ ρ} {path : List Nat}

theorem ne_nil (hPath : region.FullPath path) : path ≠ [] := by
  cases hPath <;> simp

theorem length_along (hPath : region.FullPath path) :
    (Node.along region.states path).length = path.length := by
  induction hPath with
  | atomic hState hAtomic => simp [Node.along, hState]
  | composite hState hInner _ ih =>
    rw [Node.along_cons hState, Node.children_of_nested_eq_some hInner]
    simp [ih]

theorem getLast?_along (hPath : region.FullPath path) :
    ∃ state, (Node.along region.states path).getLast? = some state ∧ state.nested = none := by
  induction hPath with
  | atomic hState hAtomic => exact ⟨_, by simp [Node.along, hState], hAtomic⟩
  | composite hState hInner hBelow ih =>
    obtain ⟨last, hLast, hAtomic⟩ := ih
    refine ⟨last, ?_, hAtomic⟩
    rw [Node.along_cons hState, Node.children_of_nested_eq_some hInner, List.getLast?_cons, hLast]
    rfl

end FullPath

end Region

def Chart.HasRegion (chart : Chart σ ρ) (inner : Region σ ρ) : Prop :=
  ∃ region ∈ chart.regions, region.Encloses inner

def Chart.SamePlace (left : Chart σ ρ) (right : Chart σ' ρ') (inner : Region σ ρ)
    (inner' : Region σ' ρ') : Prop :=
  ∃ (index : Nat) (region : Region σ ρ) (region' : Region σ' ρ'),
    left.regions[index]? = some region ∧ right.regions[index]? = some region' ∧
      Region.SamePlace region region' inner inner'

/-! ## Listing the states at every depth -/

namespace Node

mutual

/-- The labels of a state and of the states inside it, outermost first. -/
def labels : Node σ ρ → List σ
  | .atomic label => [label]
  | .composite label _ states => label :: labelsOf states

def labelsOf : List (Node σ ρ) → List σ
  | [] => []
  | state :: rest => labels state ++ labelsOf rest

end

theorem labelsOf_eq_flatMap (states : List (Node σ ρ)) :
    labelsOf states = states.flatMap labels := by
  induction states with
  | nil => rfl
  | cons state rest ih => rw [labelsOf, ih, List.flatMap_cons]

theorem forall_mem_labels_iff {property : σ → Prop} (state : Node σ ρ) :
    (∀ label ∈ state.labels, property label) ↔ property state.label ∧
      ∀ inner, state.nested = some inner → ∀ label ∈ labelsOf inner.states, property label := by
  cases state with
  | atomic => simp [labels, label, nested]
  | composite => simp [labels, label, nested]

end Node

theorem Region.forall_mem_labelsOf_iff {property : σ → Prop} (region : Region σ ρ) :
    (∀ label ∈ Node.labelsOf region.states, property label) ↔
      ∀ inner, region.Encloses inner → ∀ state ∈ inner.states, property state.label := by
  induction region using Region.induction with
  | step region ih =>
    rw [Region.forall_encloses_iff, Node.labelsOf_eq_flatMap, List.forall_mem_flatMap,
      ← forall₂_and]
    refine forall₂_congr fun state hState => ?_
    rw [Node.forall_mem_labels_iff]
    exact and_congr_right fun _ => forall₂_congr fun inner hInner => ih state hState inner hInner

namespace Chart

def labels (chart : Chart σ ρ) : List σ :=
  chart.regions.flatMap fun region => Node.labelsOf region.states

theorem forall_mem_labels_iff {property : σ → Prop} (chart : Chart σ ρ) :
    (∀ label ∈ chart.labels, property label) ↔
      ∀ region, chart.HasRegion region → ∀ state ∈ region.states, property state.label := by
  rw [labels, List.forall_mem_flatMap]
  constructor
  · rintro hLabels inner ⟨region, hRegion, hInner⟩
    exact (Region.forall_mem_labelsOf_iff region).mp (hLabels region hRegion) inner hInner
  · intro hStates region hRegion
    exact (Region.forall_mem_labelsOf_iff region).mpr fun inner hInner =>
      hStates inner ⟨region, hRegion, hInner⟩

end Chart

end Statechart
