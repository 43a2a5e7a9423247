import Mathlib.Data.List.Nodup
import Statechart.Proofs.Related

/-!
# Reordered declarations

Two declarations with the same top-level regions, except that inside any region, at whatever
depth, the states stand in another order. One is well formed if the other is. The machines that
they build are alike: their regions have the same states by id, and an initial state or a target
of one machine is that of the same id in the other, whatever its position.
-/

namespace Statechart

variable {σ ρ : Type} {C E A : Type}

/-! ## Charts in another order -/

/-- The same state, with the states in another order inside it, at whatever depth. -/
inductive Node.Reordered : Node σ ρ → Node σ ρ → Prop
  | atomic (label : σ) : Reordered (.atomic label) (.atomic label)
  | composite (label : σ) (region : ρ) {states middle states' : List (Node σ ρ)} :
      List.Forall₂ Reordered states middle → middle.Perm states' →
      Reordered (.composite label region states) (.composite label region states')

structure Region.Reordered (region region' : Region σ ρ) : Prop where
  label : region'.label = region.label
  states : ∃ middle, List.Forall₂ Node.Reordered region.states middle ∧
    middle.Perm region'.states

/-- The same chart, its top-level regions in the same order, and the states in another order. -/
structure Chart.Reordered (chart chart' : Chart σ ρ) : Prop where
  id : chart'.id = chart.id
  regions : List.Forall₂ Region.Reordered chart.regions chart'.regions

theorem Node.Reordered.label {state state' : Node σ ρ} (hState : state.Reordered state') :
    state'.label = state.label := by
  cases hState <;> rfl

theorem Node.Reordered.rel_nested {state state' : Node σ ρ} (hState : state.Reordered state') :
    Option.Rel Region.Reordered state.nested state'.nested := by
  cases hState with
  | atomic => exact .none
  | composite label region hEach hPerm => exact .some ⟨rfl, _, hEach, hPerm⟩

namespace Region.Reordered

variable {region region' : Region σ ρ}

theorem exists_mem (hRegion : region.Reordered region') {state : Node σ ρ}
    (hState : state ∈ region.states) : ∃ state' ∈ region'.states, state.Reordered state' := by
  obtain ⟨middle, hEach, hPerm⟩ := hRegion.states
  obtain ⟨state', hState', hReordered⟩ := exists_mem_of_forall₂ hEach hState
  exact ⟨state', hPerm.subset hState', hReordered⟩

theorem exists_mem_before (hRegion : region.Reordered region') {state' : Node σ ρ}
    (hState' : state' ∈ region'.states) : ∃ state ∈ region.states, state.Reordered state' := by
  obtain ⟨middle, hEach, hPerm⟩ := hRegion.states
  exact exists_mem_of_forall₂ hEach.flip (hPerm.symm.subset hState')

theorem perm_labels (hRegion : region.Reordered region') :
    (region.states.map Node.label).Perm (region'.states.map Node.label) := by
  obtain ⟨middle, hEach, hPerm⟩ := hRegion.states
  have hLabels : region.states.map Node.label = middle.map Node.label :=
    map_eq_of_forall₂ hEach fun _ _ hState => hState.label.symm
  rw [hLabels]
  exact hPerm.map Node.label

end Region.Reordered

namespace Declaration

theorem ids_eq_map_label (states : List (State C E A)) :
    ids states = (states.map Node.label).map StateLabel.id := by
  rw [ids, List.map_map]
  rfl

theorem perm_ids {region region' : Region C E A} (hRegion : region.Reordered region') :
    (ids region.states).Perm (ids region'.states) := by
  rw [ids_eq_map_label, ids_eq_map_label]
  exact hRegion.perm_labels.map StateLabel.id

theorem Region.WellFormed.of_reordered {region region' : Region C E A}
    (hFormed : Region.WellFormed region) (hRegion : region.Reordered region') :
    Region.WellFormed region' := by
  have hIds := perm_ids hRegion
  refine ⟨?_, hIds.nodup hFormed.distinct, ?_, ?_⟩
  · intro hEmpty
    rw [hEmpty] at hIds
    exact hFormed.inhabited (List.map_eq_nil_iff.mp hIds.eq_nil)
  · obtain ⟨id, hId, hInitial⟩ := hFormed.initial
    exact ⟨id, hIds.subset hId, hRegion.label ▸ hInitial⟩
  · intro state' hState' transition hTransition
    obtain ⟨state, hState, hReordered⟩ := hRegion.exists_mem_before hState'
    rw [hReordered.label] at hTransition
    exact hIds.subset (hFormed.targets state hState transition hTransition)

/-- A declaration is well formed in any order of the states. -/
theorem WellFormed.of_reordered {declaration reordered : Declaration C E A}
    (hFormed : declaration.WellFormed) (hReordered : declaration.Reordered reordered) :
    reordered.WellFormed := by
  refine hFormed.of_related hReordered.regions ?_ fun _ _ hRegion hRegionFormed =>
    hRegionFormed.of_reordered hRegion
  intro region region' hRegion state' hState'
  obtain ⟨state, hState, hStateReordered⟩ := hRegion.exists_mem_before hState'
  exact ⟨state, hState, hStateReordered.rel_nested⟩

end Declaration

/-! ## Machines that are alike -/

namespace Machine

/-- Two positions of two regions stand for states of the same id. -/
def Region.Twins (region region' : Region C E A) (index index' : Nat) : Prop :=
  ∃ state state', region.states[index]? = some state ∧ region'.states[index']? = some state' ∧
    state'.label.id = state.label.id

structure Candidate.Alike (region region' : Region C E A) (candidate candidate' : Candidate C E) :
    Prop where
  targetId : candidate'.targetId = candidate.targetId
  guard : candidate'.guard = candidate.guard
  target : Region.Twins region region' candidate.target candidate'.target

structure StateLabel.Alike (region region' : Region C E A) (label label' : StateLabel C E A) :
    Prop where
  id : label'.id = label.id
  entry : label'.entry = label.entry
  exit : label'.exit = label.exit
  candidates : ∀ kind, List.Forall₂ (Candidate.Alike region region') (label.candidates kind)
    (label'.candidates kind)

/-- Two regions with the same states by id, whatever their order, at every depth. -/
inductive Region.Alike : Region C E A → Region C E A → Prop
  | intro {region region' : Region C E A} : region'.label.id = region.label.id →
      Twins region region' region.label.initial region'.label.initial →
      (∀ (index index' : Nat) (state state' : State C E A), region.states[index]? = some state →
        region'.states[index']? = some state' → state'.label.id = state.label.id →
        StateLabel.Alike region region' state.label state'.label) →
      (∀ (index index' : Nat) (state state' : State C E A), region.states[index]? = some state →
        region'.states[index']? = some state' → state'.label.id = state.label.id →
        Option.Rel Alike state.nested state'.nested) →
      Alike region region'

namespace Region.Alike

variable {region region' : Region C E A} (hAlike : Region.Alike region region')

include hAlike

theorem id : region'.label.id = region.label.id := by
  cases hAlike
  assumption

theorem initial : Region.Twins region region' region.label.initial region'.label.initial := by
  cases hAlike
  assumption

variable {index index' : Nat} {state state' : State C E A}
  (hState : region.states[index]? = some state) (hState' : region'.states[index']? = some state')
  (hSame : state'.label.id = state.label.id)

include hState hState' hSame

theorem label : StateLabel.Alike region region' state.label state'.label := by
  cases hAlike with
  | intro _ _ hLabels _ => exact hLabels index index' state state' hState hState' hSame

theorem nested : (state.nested = none ∧ state'.nested = none) ∨
    ∃ inner inner', state.nested = some inner ∧ state'.nested = some inner' ∧
      Region.Alike inner inner' := by
  cases hAlike with
  | intro _ _ _ hNested => exact rel_cases (hNested index index' state state' hState hState' hSame)

theorem inner {inner inner' : Region C E A} (hInner : state.nested = some inner)
    (hInner' : state'.nested = some inner') : Region.Alike inner inner' := by
  rcases hAlike.nested hState hState' hSame with ⟨hAtomic, _⟩ | ⟨_, _, hOther, hOther', hInside⟩
  · cases hAtomic.symm.trans hInner
  · cases hOther.symm.trans hInner
    cases hOther'.symm.trans hInner'
    exact hInside

end Region.Alike

end Machine

/-! ## Building in another order -/

namespace Declaration

theorem forall₂_of_common {α β γ : Type} {first : α → β → Prop} {second : α → γ → Prop}
    {related : β → γ → Prop} {sources : List α} {left : List β} {right : List γ}
    (hLeft : List.Forall₂ first sources left) (hRight : List.Forall₂ second sources right)
    (hRelated : ∀ source a b, first source a → second source b → related a b) :
    List.Forall₂ related left right := by
  induction hLeft generalizing right with
  | nil =>
    cases hRight
    exact .nil
  | cons hFirst _ ih =>
    cases hRight with
    | cons hSecond hRest => exact .cons (hRelated _ _ _ hFirst hSecond) (ih hRest)

theorem rel_of_square {α β γ δ : Type} {before : α → β → Prop} {first : α → γ → Prop}
    {second : β → δ → Prop} {after : γ → δ → Prop} {source : Option α} {source' : Option β}
    {left : Option γ} {right : Option δ} (hBefore : Option.Rel before source source')
    (hLeft : Option.Rel first source left) (hRight : Option.Rel second source' right)
    (hAfter : ∀ a b c d, source = some a → before a b → first a c → second b d → after c d) :
    Option.Rel after left right := by
  cases hBefore with
  | none =>
    cases hLeft
    cases hRight
    exact .none
  | some hSources =>
    cases hLeft with
    | some hFirst =>
      cases hRight with
      | some hSecond => exact .some (hAfter _ _ _ _ rfl hSources hFirst hSecond)

theorem twins_of_siblings {region region' : Machine.Region C E A} {index index' : Nat} {id : String}
    (hIndex : (siblings region)[index]? = some id)
    (hIndex' : (siblings region')[index']? = some id) :
    Machine.Region.Twins region region' index index' := by
  rw [siblings, List.getElem?_map, Option.map_eq_some_iff] at hIndex hIndex'
  obtain ⟨state, hState, rfl⟩ := hIndex
  obtain ⟨state', hState', hSame⟩ := hIndex'
  exact ⟨state, state', hState, hState', hSame⟩

theorem StateLabel.Image.alike {region region' : Machine.Region C E A}
    {declared : StateLabel C E A} {label label' : Machine.StateLabel C E A}
    (hLabel : declared.Image (siblings region) label)
    (hLabel' : declared.Image (siblings region') label') :
    Machine.StateLabel.Alike region region' label label' := by
  refine ⟨hLabel'.id.trans hLabel.id.symm, hLabel'.entry.trans hLabel.entry.symm,
    hLabel'.exit.trans hLabel.exit.symm, ?_⟩
  intro kind
  refine forall₂_of_common (hLabel.candidates kind) (hLabel'.candidates kind) ?_
  intro transition candidate candidate' hImage hImage'
  exact ⟨hImage'.targetId.trans hImage.targetId.symm, hImage'.guard.trans hImage.guard.symm,
    twins_of_siblings hImage.target hImage'.target⟩

theorem Region.DeepImage.rel_nested {declared : Region C E A} {region : Machine.Region C E A}
    (hImage : Region.DeepImage declared region) {index : Nat} {state : State C E A}
    {state' : Machine.State C E A} (hState : declared.states[index]? = some state)
    (hState' : region.states[index]? = some state') :
    Option.Rel Region.DeepImage state.nested state'.nested := by
  have hComposite := ((hImage declared region (.here _ _)).states index _ _ hState hState').2
  rw [Node.isComposite_eq_isSome_nested, Node.isComposite_eq_isSome_nested] at hComposite
  have hInside : ∀ next next', state.nested = some next → state'.nested = some next' →
      Region.DeepImage next next' :=
    fun next next' hNext hNext' i i' h => hImage i i' (.inside hState hState' hNext hNext' h)
  cases hNext : state.nested with
  | none =>
    rw [hNext, Option.isSome_none, Option.isSome_eq_false_iff, Option.isNone_iff_eq_none]
      at hComposite
    rw [hComposite]
    exact .none
  | some next =>
    rw [hNext, Option.isSome_some, Option.isSome_iff_exists] at hComposite
    obtain ⟨next', hNext'⟩ := hComposite
    rw [hNext']
    exact .some (hInside next next' hNext hNext')

theorem reordered_of_same_id {region region' : Region C E A} (hRegion : region.Reordered region')
    (hDistinct : (ids region'.states).Nodup) {state state' : State C E A}
    (hState : state ∈ region.states) (hState' : state' ∈ region'.states)
    (hSame : state'.label.id = state.label.id) : state.Reordered state' := by
  obtain ⟨other, hOther, hReordered⟩ := hRegion.exists_mem hState
  have hEq : other = state' := List.inj_on_of_nodup_map hDistinct hOther hState'
    ((congrArg StateLabel.id hReordered.label).trans hSame.symm)
  exact hEq ▸ hReordered

/-- States of one id were declared as one state, up to the order inside. -/
theorem exists_sources {declared declared' : Region C E A} {region region' : Machine.Region C E A}
    (hReordered : declared.Reordered declared') (hDistinct : (ids declared'.states).Nodup)
    (hImage : Region.DeepImage declared region) (hImage' : Region.DeepImage declared' region')
    {index index' : Nat} {state state' : Machine.State C E A}
    (hState : region.states[index]? = some state) (hState' : region'.states[index']? = some state')
    (hSame : state'.label.id = state.label.id) :
    ∃ source ∈ declared.states, ∃ source' : State C E A, source.Reordered source' ∧
      source.label.Image (siblings region) state.label ∧
      source'.label.Image (siblings region') state'.label ∧
      Option.Rel Region.DeepImage source.nested state.nested ∧
      Option.Rel Region.DeepImage source'.nested state'.nested := by
  obtain ⟨source, hSource, hLabel, _⟩ := hImage.exists_state hState
  obtain ⟨source', hSource', hLabel', _⟩ := hImage'.exists_state hState'
  refine ⟨source, List.mem_of_getElem? hSource, source', ?_, hLabel, hLabel',
    hImage.rel_nested hSource hState, hImage'.rel_nested hSource' hState'⟩
  exact reordered_of_same_id hReordered hDistinct (List.mem_of_getElem? hSource)
    (List.mem_of_getElem? hSource') (hLabel'.id.symm.trans (hSame.trans hLabel.id))

/-- Regions that are declared alike up to the order of the states are built alike. -/
theorem Region.alike_of_reordered {declared declared' : Region C E A}
    {region region' : Machine.Region C E A}
    (hFormed : ∀ inner, declared.Encloses inner → Region.WellFormed inner)
    (hReordered : declared.Reordered declared') (hImage : Region.DeepImage declared region)
    (hImage' : Region.DeepImage declared' region') : Machine.Region.Alike region region' := by
  induction declared using Statechart.Region.induction generalizing declared' region region' with
  | step declared ih =>
    have hHere := hImage declared region (.here _ _)
    have hHere' := hImage' declared' region' (.here _ _)
    have hDistinct := ((hFormed declared (.here _)).of_reordered hReordered).distinct
    refine .intro ?_ ?_ ?_ ?_
    · rw [hHere.id, hHere'.id, hReordered.label]
    · obtain ⟨id, hId, hInitial⟩ := hHere.initial
      obtain ⟨id', hId', hInitial'⟩ := hHere'.initial
      rw [hReordered.label, hId] at hId'
      cases hId'
      exact twins_of_siblings ((hInitial _).mpr rfl) ((hInitial' _).mpr rfl)
    · intro index index' state state' hState hState' hSame
      obtain ⟨source, _, source', hSource, hLabel, hLabel', _⟩ :=
        exists_sources hReordered hDistinct hImage hImage' hState hState' hSame
      rw [hSource.label] at hLabel'
      exact hLabel.alike hLabel'
    · intro index index' state state' hState hState' hSame
      obtain ⟨source, hMember, source', hSource, _, _, hNested, hNested'⟩ :=
        exists_sources hReordered hDistinct hImage hImage' hState hState' hSame
      refine rel_of_square hSource.rel_nested hNested hNested' ?_
      intro next next' inner inner' hNext hNextReordered hInner hInner'
      exact ih source hMember next hNext
        (fun region hRegion => hFormed region (.inside hMember hNext hRegion)) hNextReordered hInner
        hInner'

/-- What can be built can be built in any order of the states, and the machine is alike. -/
theorem exists_build_of_reordered {declaration reordered : Declaration C E A}
    {machine : Machine C E A} (hBuild : declaration.build = .ok machine)
    (hReordered : declaration.Reordered reordered) :
    ∃ machine', reordered.build = .ok machine' ∧ machine'.id = machine.id ∧
      List.Forall₂ Machine.Region.Alike machine.regions machine'.regions :=
  exists_build_of_related (fun _ _ _ _ => Region.alike_of_reordered) hBuild
    ((wellFormed_of_build hBuild).of_reordered hReordered) hReordered.id hReordered.regions

end Declaration

end Statechart
