import Statechart.Proofs.Reordering

/-!
# Shadowed transitions

In a state, a transition that stands after an unguarded one on the same event kind is shadowed: the
first open candidate is never it. A declaration with some shadowed transitions left out, in whatever
states, is well formed if the whole one is, and the two machines that are built have the same
states at the same positions, with candidates that lead to the same choices.
-/

namespace Statechart

variable {σ σ' ρ : Type} {C E A : Type}

/-! ## Charts of one shape -/

/-- The same nesting with the same regions, and labels that are related at every state. -/
inductive Node.Relabelled (related : σ → σ' → Prop) : Node σ ρ → Node σ' ρ → Prop
  | atomic {label : σ} {label' : σ'} : related label label' →
      Relabelled related (.atomic label) (.atomic label')
  | composite {label : σ} {label' : σ'} (region : ρ) {states : List (Node σ ρ)}
      {states' : List (Node σ' ρ)} : related label label' →
      List.Forall₂ (Relabelled related) states states' →
      Relabelled related (.composite label region states) (.composite label' region states')

structure Region.Relabelled (related : σ → σ' → Prop) (region : Region σ ρ)
    (region' : Region σ' ρ) : Prop where
  label : region'.label = region.label
  states : List.Forall₂ (Node.Relabelled related) region.states region'.states

structure Chart.Relabelled (related : σ → σ' → Prop) (chart : Chart σ ρ) (chart' : Chart σ' ρ) :
    Prop where
  id : chart'.id = chart.id
  regions : List.Forall₂ (Region.Relabelled related) chart.regions chart'.regions

section Relabelled

variable {related : σ → σ' → Prop} {state : Node σ ρ} {state' : Node σ' ρ}

theorem Node.Relabelled.label (hState : state.Relabelled related state') :
    related state.label state'.label := by
  cases hState <;> assumption

theorem Node.Relabelled.rel_nested (hState : state.Relabelled related state') :
    Option.Rel (Region.Relabelled related) state.nested state'.nested := by
  cases hState with
  | atomic => exact .none
  | composite region _ hStates => exact .some ⟨rfl, hStates⟩

theorem Node.Relabelled.children (hState : state.Relabelled related state') :
    List.Forall₂ (Node.Relabelled related) state.children state'.children := by
  cases hState with
  | atomic => exact .nil
  | composite region _ hStates => exact hStates

theorem Node.relabelled_of_nested (hLabel : related state.label state'.label)
    (hNested : Option.Rel (Region.Relabelled related) state.nested state'.nested) :
    state.Relabelled related state' := by
  cases state with
  | atomic =>
    cases state' with
    | atomic => exact .atomic hLabel
    | composite => cases hNested
  | composite label region states =>
    cases state' with
    | atomic => cases hNested
    | composite label' region' states' =>
      cases hNested with
      | some hInner =>
        obtain ⟨rfl, hStates⟩ := hInner
        exact .composite _ hLabel hStates

theorem rel_getElem? {α β : Type} {related : α → β → Prop} {left : List α} {right : List β}
    (hRelated : List.Forall₂ related left right) (index : Nat) :
    Option.Rel related left[index]? right[index]? := by
  induction hRelated generalizing index with
  | nil => exact .none
  | cons hFirst _ ih =>
    cases index with
    | zero => exact .some hFirst
    | succ index => exact ih index

theorem Region.Relabelled.exists_before {region : Region σ ρ} {region' : Region σ' ρ}
    (hRegion : region.Relabelled related region') {state' : Node σ' ρ}
    (hState' : state' ∈ region'.states) :
    ∃ state ∈ region.states, state.Relabelled related state' :=
  exists_mem_of_forall₂ hRegion.states.flip hState'

end Relabelled

namespace Declaration

/-! ## Leaving transitions out -/

/-- One of the transitions before is unguarded and on the same event kind. -/
def Transition.ShadowedBy (before : List (Transition C E)) (transition : Transition C E) : Prop :=
  ∃ first ∈ before, first.event = transition.event ∧ first.guard = none

/-- The second list has the transitions of the first one except for some shadowed ones; `before`
are the transitions of the same state that stand before both. -/
inductive ThinnedAfter :
    List (Transition C E) → List (Transition C E) → List (Transition C E) → Prop
  | nil (before : List (Transition C E)) : ThinnedAfter before [] []
  | keep {before rest rest' : List (Transition C E)} {transition : Transition C E} :
      ThinnedAfter (before ++ [transition]) rest rest' →
      ThinnedAfter before (transition :: rest) (transition :: rest')
  | drop {before rest rest' : List (Transition C E)} {transition : Transition C E} :
      transition.ShadowedBy before → ThinnedAfter (before ++ [transition]) rest rest' →
      ThinnedAfter before (transition :: rest) rest'

structure StateLabel.Thinned (label label' : StateLabel C E A) : Prop where
  id : label'.id = label.id
  entry : label'.entry = label.entry
  exit : label'.exit = label.exit
  transitions : ThinnedAfter [] label.transitions label'.transitions

/-- The same declaration with some shadowed transitions left out. -/
abbrev Thinned (declaration thinned : Declaration C E A) : Prop :=
  Chart.Relabelled StateLabel.Thinned declaration thinned

theorem ThinnedAfter.refl (before transitions : List (Transition C E)) :
    ThinnedAfter before transitions transitions := by
  induction transitions generalizing before with
  | nil => exact .nil before
  | cons transition rest ih => exact .keep (ih _)

theorem StateLabel.Thinned.refl (label : StateLabel C E A) : label.Thinned label :=
  ⟨rfl, rfl, rfl, .refl [] label.transitions⟩

theorem ThinnedAfter.sublist {before transitions transitions' : List (Transition C E)}
    (hThinned : ThinnedAfter before transitions transitions') :
    transitions'.Sublist transitions := by
  induction hThinned with
  | nil => exact .slnil
  | keep _ ih => exact ih.cons_cons _
  | drop _ _ ih => exact ih.cons _

/-- Leaving shadowed transitions out does not change which transition is the first with a property,
if an unguarded transition has the property whenever a later one on the same event kind does. -/
theorem ThinnedAfter.find?_eq (property : Transition C E → Bool)
    (hProperty : ∀ first transition : Transition C E, first.event = transition.event →
      first.guard = none → property transition = true → property first = true)
    {before transitions transitions' : List (Transition C E)}
    (hThinned : ThinnedAfter before transitions transitions')
    (hBefore : ∀ transition ∈ before, property transition = false) :
    transitions'.find? property = transitions.find? property := by
  -- Nothing before has the property: otherwise the search would have ended there.
  induction hThinned with
  | nil => rfl
  | @keep before rest rest' transition _ ih =>
    cases hFirst : property transition with
    | true => rw [List.find?_cons_of_pos hFirst, List.find?_cons_of_pos hFirst]
    | false =>
      rw [List.find?_cons_of_neg (by simp [hFirst]), List.find?_cons_of_neg (by simp [hFirst])]
      exact ih (List.forall_mem_append.mpr ⟨hBefore, by simpa using hFirst⟩)
  | @drop before rest rest' transition hShadowed _ ih =>
    obtain ⟨first, hMember, hEvent, hGuard⟩ := hShadowed
    have hUnmet : property transition = false := by
      cases hMet : property transition with
      | false => rfl
      | true =>
        have hFirst := hProperty first transition hEvent hGuard hMet
        cases hFirst.symm.trans (hBefore first hMember)
    rw [List.find?_cons_of_neg (by simp [hUnmet])]
    exact ih (List.forall_mem_append.mpr ⟨hBefore, by simpa using hUnmet⟩)

/-! ## Well-formedness -/

theorem ids_eq_of_thinned {states states' : List (State C E A)}
    (hStates : List.Forall₂ (Node.Relabelled StateLabel.Thinned) states states') :
    ids states' = ids states :=
  map_eq_of_forall₂ hStates.flip fun _ _ hState => hState.label.id

theorem Region.WellFormed.of_thinned {region region' : Region C E A}
    (hFormed : Region.WellFormed region) (hThinned : region.Relabelled StateLabel.Thinned region') :
    Region.WellFormed region' := by
  have hIds := ids_eq_of_thinned hThinned.states
  refine ⟨?_, hIds ▸ hFormed.distinct, ?_, ?_⟩
  · intro hEmpty
    have hStates := hThinned.states
    rw [hEmpty, List.forall₂_nil_right_iff] at hStates
    exact hFormed.inhabited hStates
  · rw [hIds, hThinned.label]
    exact hFormed.initial
  · intro state' hState' transition hTransition
    obtain ⟨state, hState, hStateThinned⟩ := hThinned.exists_before hState'
    rw [hIds]
    exact hFormed.targets state hState transition
      (hStateThinned.label.transitions.sublist.subset hTransition)

theorem WellFormed.of_thinned {declaration thinned : Declaration C E A}
    (hFormed : declaration.WellFormed) (hThinned : declaration.Thinned thinned) :
    thinned.WellFormed := by
  refine hFormed.of_related hThinned.regions ?_ fun _ _ hRegion hRegionFormed =>
    hRegionFormed.of_thinned hRegion
  intro region region' hRegion state' hState'
  obtain ⟨state, hState, hStateThinned⟩ := hRegion.exists_before hState'
  exact ⟨state, hState, hStateThinned.rel_nested⟩

end Declaration

/-! ## Candidates that lead to the same choices -/

namespace Machine

/-- The same state, except for candidates that are never chosen. -/
structure StateLabel.Interchangeable [Event E] (label label' : StateLabel C E A) : Prop where
  id : label'.id = label.id
  entry : label'.entry = label.entry
  exit : label'.exit = label.exit
  choose : ∀ (context : C) (event : E),
    choose context event (label'.candidates (Event.kind event)) =
      choose context event (label.candidates (Event.kind event))

theorem choose_congr {context : C} {event : E} {candidates candidates' : List (Candidate C E)}
    (hEmpty : candidates' = [] ↔ candidates = [])
    (hFirst : (candidates'.find? fun candidate => candidate.isOpen context event) =
      candidates.find? fun candidate => candidate.isOpen context event) :
    choose context event candidates' = choose context event candidates := by
  cases candidates with
  | nil => rw [hEmpty.mpr rfl]
  | cons first rest =>
    cases candidates' with
    | nil => cases hEmpty.mp rfl
    | cons first' rest' => simp only [choose, hFirst]

end Machine

namespace Declaration

/-- What a transition is resolved to among distinct ids. -/
def Transition.candidate (ids : List String) (transition : Transition C E) :
    Machine.Candidate C E :=
  ⟨ids.idxOf transition.target, transition.target, transition.guard⟩

theorem Transition.Image.eq_candidate {ids : List String} (hDistinct : ids.Nodup)
    {transition : Transition C E} {candidate : Machine.Candidate C E}
    (hImage : transition.Image ids candidate) : transition.candidate ids = candidate := by
  obtain ⟨target, targetId, guard⟩ := candidate
  obtain ⟨rfl, rfl, hTarget⟩ := hImage
  obtain ⟨hIndex, hId⟩ := List.getElem?_eq_some_iff.mp hTarget
  rw [Transition.candidate, ← hId, hDistinct.idxOf_getElem]

theorem StateLabel.Image.candidates_eq {ids : List String} (hDistinct : ids.Nodup)
    {declared : StateLabel C E A} {label : Machine.StateLabel C E A}
    (hImage : declared.Image ids label) (kind : String) :
    label.candidates kind = (declared.transitions.filter fun transition =>
      transition.event = kind).map (Transition.candidate ids) := by
  refine Eq.symm ?_
  rw [← List.forall₂_eq_eq_eq, List.forall₂_map_left_iff]
  exact (hImage.candidates kind).imp fun _ _ hCandidate => hCandidate.eq_candidate hDistinct

theorem ThinnedAfter.choose_eq {transitions transitions' : List (Transition C E)}
    (hThinned : ThinnedAfter [] transitions transitions') (ids : List String) (kind : String)
    (context : C) (event : E) :
    Machine.choose context event ((transitions'.filter fun transition =>
        transition.event = kind).map (Transition.candidate ids)) =
      Machine.choose context event ((transitions.filter fun transition =>
        transition.event = kind).map (Transition.candidate ids)) := by
  refine Machine.choose_congr ?_ ?_
  · have hDeclared := hThinned.find?_eq (fun transition => transition.event = kind)
      (by simp_all) (by simp)
    simp only [List.map_eq_nil_iff, List.filter_eq_nil_iff]
    rw [← List.find?_eq_none, ← List.find?_eq_none, hDeclared]
  · simp only [List.find?_map, List.find?_filter]
    refine congrArg _ (hThinned.find?_eq _ ?_ (by simp))
    intro first transition hEvent hGuard hOpen
    simp_all [Transition.candidate, Machine.Candidate.isOpen]

theorem StateLabel.Thinned.interchangeable [Event E] {ids : List String} (hDistinct : ids.Nodup)
    {declared declared' : StateLabel C E A} {label label' : Machine.StateLabel C E A}
    (hThinned : declared.Thinned declared') (hImage : declared.Image ids label)
    (hImage' : declared'.Image ids label') :
    Machine.StateLabel.Interchangeable label label' := by
  refine ⟨?_, ?_, ?_, ?_⟩
  · rw [hImage.id, hImage'.id, hThinned.id]
  · rw [hImage.entry, hImage'.entry, hThinned.entry]
  · rw [hImage.exit, hImage'.exit, hThinned.exit]
  · intro context event
    rw [hImage.candidates_eq hDistinct, hImage'.candidates_eq hDistinct]
    exact hThinned.transitions.choose_eq ids (Event.kind event) context event

/-! ## Building -/

theorem Region.Image.label_eq {declared declared' : Region C E A}
    {region region' : Machine.Region C E A} (hImage : Region.Image declared region)
    (hImage' : Region.Image declared' region') (hDeclared : declared'.label = declared.label)
    (hSiblings : siblings region' = siblings region) : region'.label = region.label := by
  obtain ⟨id, hId, hInitial⟩ := hImage.initial
  obtain ⟨id', hId', hInitial'⟩ := hImage'.initial
  rw [hDeclared, hId] at hId'
  cases hId'
  rw [hSiblings] at hInitial'
  have hRegionId : region'.label.id = region.label.id := by
    rw [hImage.id, hImage'.id, hDeclared]
  have hIndex : region'.label.initial = region.label.initial :=
    (hInitial _).mp ((hInitial' _).mpr rfl)
  cases hLabel : region.label
  cases hLabel' : region'.label
  simp_all

/-- Regions that are declared alike, shadowed transitions aside, are built alike. -/
theorem Region.interchangeable_of_thinned [Event E] {declared declared' : Region C E A}
    {region region' : Machine.Region C E A}
    (hFormed : ∀ inner, declared.Encloses inner → Region.WellFormed inner)
    (hThinned : declared.Relabelled StateLabel.Thinned declared')
    (hImage : Region.DeepImage declared region) (hImage' : Region.DeepImage declared' region') :
    region.Relabelled Machine.StateLabel.Interchangeable region' := by
  induction declared using Statechart.Region.induction generalizing declared' region region' with
  | step declared ih =>
    have hHere := hImage declared region (.here _ _)
    have hHere' := hImage' declared' region' (.here _ _)
    have hSiblings : siblings region' = siblings region := by
      rw [hImage.siblings_eq, hImage'.siblings_eq, ids_eq_of_thinned hThinned.states]
    have hDistinct : (siblings region).Nodup := by
      rw [hImage.siblings_eq]
      exact (hFormed declared (.here _)).distinct
    refine ⟨hHere.label_eq hHere' hThinned.label hSiblings, ?_⟩
    refine List.forall₂_iff_get.mpr ⟨?_, ?_⟩
    · rw [hHere.length, hHere'.length, hThinned.states.length_eq]
    · intro index hIndex hIndex'
      have hState := List.getElem?_eq_getElem hIndex
      have hState' := List.getElem?_eq_getElem hIndex'
      obtain ⟨source, hSource, hLabel, _⟩ := hImage.exists_state hState
      obtain ⟨source', hSource', hLabel', _⟩ := hImage'.exists_state hState'
      have hSources := forall₂_getElem? hThinned.states hSource hSource'
      refine Node.relabelled_of_nested ?_ ?_
      · exact hSources.label.interchangeable hDistinct hLabel (hSiblings ▸ hLabel')
      · refine rel_of_square hSources.rel_nested (hImage.rel_nested hSource hState)
          (hImage'.rel_nested hSource' hState') ?_
        intro next next' inner inner' hNext hNextThinned hInner hInner'
        have hMember := List.mem_of_getElem? hSource
        exact ih source hMember next hNext
          (fun region hRegion => hFormed region (.inside hMember hNext hRegion)) hNextThinned hInner
          hInner'

/-- What can be built can be built without some shadowed transitions, and the machine is the same
except for candidates that are never chosen. -/
theorem exists_build_of_thinned [Event E] {declaration thinned : Declaration C E A}
    {machine : Machine C E A} (hBuild : declaration.build = .ok machine)
    (hThinned : declaration.Thinned thinned) :
    ∃ machine', thinned.build = .ok machine' ∧
      machine.Relabelled Machine.StateLabel.Interchangeable machine' := by
  obtain ⟨machine', hBuild', hId, hRegions⟩ :=
    exists_build_of_related (fun _ _ _ _ => Region.interchangeable_of_thinned) hBuild
      ((wellFormed_of_build hBuild).of_thinned hThinned) hThinned.id hThinned.regions
  exact ⟨machine', hBuild', hId, hRegions⟩

end Declaration

end Statechart
