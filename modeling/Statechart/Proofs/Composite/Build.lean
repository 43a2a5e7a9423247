import Statechart.Proofs.Composite
import Statechart.Proofs.Parallel

/-!
# Building the region inside a composite state

What a region is built to does not depend on where it stands: its dotted path shows in the
violations that resolving would report, and nowhere else. So the region inside a composite state
of a declaration that is built can be built alone, and the machine is the same.
-/

namespace Statechart

variable {C E A : Type}

namespace Declaration

/-! ## Labels -/

section Labels

variable {path : String} (path' : String) {known : List String}

theorem Transition.resolve_elsewhere {state : String} {transition : Transition C E}
    {candidate : Machine.Candidate C E}
    (hCandidate : transition.resolve path state known = .ok candidate) :
    transition.resolve path' state known = .ok candidate := by
  rw [Transition.resolve] at hCandidate ⊢
  cases hTarget : position? transition.target known with
  | none =>
    rw [hTarget] at hCandidate
    cases hCandidate
  | some target =>
    rw [hTarget] at hCandidate
    exact hCandidate

theorem StateLabel.resolve_elsewhere {state : StateLabel C E A} {label : Machine.StateLabel C E A}
    (hLabel : state.resolve path known = .ok label) : state.resolve path' known = .ok label := by
  rw [StateLabel.resolve, bind_eq_ok_iff] at hLabel ⊢
  obtain ⟨table, hTable, hRest⟩ := hLabel
  refine ⟨table, foldlM_eq_ok_of_imp ?_ hTable, hRest⟩
  intro before transition after hStep
  rw [bind_eq_ok_iff] at hStep ⊢
  obtain ⟨candidate, hCandidate, hAdded⟩ := hStep
  exact ⟨candidate, Transition.resolve_elsewhere path' hCandidate, hAdded⟩

theorem RegionLabel.resolve_elsewhere {region : RegionLabel} {label : Machine.RegionLabel}
    (hLabel : region.resolve path known = .ok label) : region.resolve path' known = .ok label := by
  rw [RegionLabel.resolve] at hLabel ⊢
  split at hLabel
  · cases hLabel
  · split at hLabel
    · cases hLabel
    · exact hLabel

end Labels

/-! ## States and regions -/

theorem State.resolve_eq_ok_iff_of_eq_none {state : State C E A} (hAtomic : state.nested = none)
    {path : String} {known : List String} {result : Machine.State C E A} :
    State.resolve path known state = .ok result ↔
      ∃ label, state.label.resolve path known = .ok label ∧ result = .atomic label := by
  cases state with
  | atomic label =>
    rw [State.resolve, bind_eq_ok_iff, Node.label]
    refine exists_congr fun label' => and_congr_right fun _ => ?_
    exact ⟨by rintro ⟨⟩; rfl, by rintro rfl; rfl⟩
  | composite => cases hAtomic

theorem State.resolve_eq_ok_iff_of_eq_some {state : State C E A} {inner : Region C E A}
    (hInner : state.nested = some inner) {path : String} {known : List String}
    {result : Machine.State C E A} :
    State.resolve path known state = .ok result ↔
      ∃ label inner', state.label.resolve path known = .ok label ∧
        Region.resolve (innerPath path state.label.id) inner = .ok inner' ∧
        result = .composite label inner'.label inner'.states := by
  cases state with
  | atomic => cases hInner
  | composite label region states =>
    cases hInner
    rw [State.resolve_composite, bind_eq_ok_iff, Node.label]
    refine exists_congr fun label' => ?_
    rw [exists_and_left, bind_eq_ok_iff]
    refine and_congr_right fun _ => exists_congr fun inner' => and_congr_right fun _ => ?_
    exact ⟨by rintro ⟨⟩; rfl, by rintro rfl; rfl⟩

theorem Region.resolve_eq_ok_iff {path : String} {region : Region C E A}
    {result : Machine.Region C E A} :
    Region.resolve path region = .ok result ↔
      region.label.resolve path (ids region.states) = .ok result.label ∧
        region.states.mapM (State.resolve path (ids region.states)) = .ok result.states := by
  rw [Region.resolve, resolveStates_eq_mapM, bind_eq_ok_iff]
  constructor
  · rintro ⟨label, hLabel, hRest⟩
    obtain ⟨states, hStates, hResult⟩ := bind_eq_ok_iff.mp hRest
    cases hResult
    exact ⟨hLabel, hStates⟩
  · rintro ⟨hLabel, hStates⟩
    exact ⟨_, hLabel, bind_eq_ok_iff.mpr ⟨_, hStates, rfl⟩⟩

/-- A region that is built in one place is built in the same way anywhere. -/
theorem Region.resolve_elsewhere {path : String} (path' : String) {region : Region C E A}
    {result : Machine.Region C E A} (hRegion : Region.resolve path region = .ok result) :
    Region.resolve path' region = .ok result := by
  induction region using Statechart.Region.induction generalizing path path' result with
  | step region ih =>
    obtain ⟨hLabel, hStates⟩ := Region.resolve_eq_ok_iff.mp hRegion
    refine Region.resolve_eq_ok_iff.mpr
      ⟨RegionLabel.resolve_elsewhere path' hLabel, mapM_eq_ok_of_imp ?_ hStates⟩
    intro state hState state' hResolve
    cases hNested : state.nested with
    | none =>
      rw [State.resolve_eq_ok_iff_of_eq_none hNested] at hResolve ⊢
      obtain ⟨label, hOwn, hResult⟩ := hResolve
      exact ⟨label, StateLabel.resolve_elsewhere path' hOwn, hResult⟩
    | some inner =>
      rw [State.resolve_eq_ok_iff_of_eq_some hNested] at hResolve ⊢
      obtain ⟨label, inner', hOwn, hInner, hResult⟩ := hResolve
      exact ⟨label, inner', StateLabel.resolve_elsewhere path' hOwn,
        ih state hState inner hNested _ hInner, hResult⟩

/-! ## The region inside a composite state -/

theorem StateLabel.entry_of_resolve {path : String} {known : List String}
    {state : StateLabel C E A} {label : Machine.StateLabel C E A}
    (hLabel : state.resolve path known = .ok label) : label.entry = state.entry := by
  obtain ⟨table, _, hResult⟩ := bind_eq_ok_iff.mp hLabel
  cases hResult
  rfl

/-- The machine of a region holds, at the place of a declared composite state, what the region
inside it is built to. -/
theorem exists_reaches_of_resolve {path : String} {declared : Region C E A}
    {region : Machine.Region C E A} (hRegion : Region.resolve path declared = .ok region)
    {indices : List Nat} {state : State C E A} (hReaches : declared.Reaches indices state)
    {inner : Region C E A} (hInner : state.nested = some inner) :
    ∃ state' inner' path', region.Reaches indices state' ∧ state'.label.entry = state.label.entry ∧
      state'.nested = some inner' ∧ Region.resolve path' inner = .ok inner' := by
  induction hReaches generalizing path region with
  | here hState =>
    obtain ⟨_, hStates⟩ := Region.resolve_eq_ok_iff.mp hRegion
    obtain ⟨state', hState', hResolve⟩ :=
      exists_getElem?_of_forall₂ (mapM_eq_ok_iff.mp hStates) hState
    obtain ⟨label, inner', hLabel, hBuilt, rfl⟩ :=
      (State.resolve_eq_ok_iff_of_eq_some hInner).mp hResolve
    exact ⟨_, inner', _, .here hState', StateLabel.entry_of_resolve hLabel, rfl, hBuilt⟩
  | inside hOuter hNext _ ih =>
    obtain ⟨_, hStates⟩ := Region.resolve_eq_ok_iff.mp hRegion
    obtain ⟨outer', hOuter', hResolve⟩ :=
      exists_getElem?_of_forall₂ (mapM_eq_ok_iff.mp hStates) hOuter
    obtain ⟨label, next', _, hNext', rfl⟩ := (State.resolve_eq_ok_iff_of_eq_some hNext).mp hResolve
    obtain ⟨state', inner', path', hState', hEntry, hInner', hBuilt⟩ := ih hNext' hInner
    exact ⟨state', inner', path', .inside hOuter' rfl hState', hEntry, hInner', hBuilt⟩

/-- The region inside a composite state of a declaration that is built makes a machine alone, of
the region that stands in the same place of the whole machine. -/
theorem exists_build_single_inside {declaration : Declaration C E A} {machine : Machine C E A}
    (hBuild : declaration.build = .ok machine) {position : Nat} {declared : Region C E A}
    (hDeclared : declaration.regions[position]? = some declared) {indices : List Nat}
    {state : State C E A} (hReaches : declared.Reaches indices state) {inner : Region C E A}
    (hInner : state.nested = some inner) :
    ∃ region state' inner', machine.regions[position]? = some region ∧
      region.Reaches indices state' ∧ state'.label.entry = state.label.entry ∧
      state'.nested = some inner' ∧ ∀ id, build (.single id inner) = .ok (.single id inner') := by
  obtain ⟨hViolations, _, hRegions⟩ := build_eq_ok_iff.mp hBuild
  obtain ⟨region, hRegion, hResolve⟩ := exists_getElem?_of_forall₂ hRegions hDeclared
  obtain ⟨state', inner', path', hState', hEntry, hInner', hBuilt⟩ :=
    exists_reaches_of_resolve hResolve hReaches hInner
  refine ⟨region, state', inner', hRegion, hState', hEntry, hInner', ?_⟩
  intro id
  have hFormed := (violations_eq_nil_iff declaration).mp hViolations
  have hSingle : violations (.single id inner) = [] := by
    refine (violations_eq_nil_iff _).mpr ⟨List.cons_ne_nil _ _, ?_⟩
    rintro region ⟨_, hMember, hEncloses⟩
    cases List.mem_singleton.mp hMember
    exact hFormed.regions region ⟨declared, List.mem_of_getElem? hDeclared,
      (hReaches.encloses hInner).trans hEncloses⟩
  exact build_eq_ok_iff.mpr ⟨hSingle, rfl, .cons (Region.resolve_elsewhere _ hBuilt) .nil⟩

end Declaration

end Statechart
