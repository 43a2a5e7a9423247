import Statechart.Proofs.Related

/-!
# Names in a machine

In a machine that was built no two states of a region share an id, and every candidate goes by the
id of the state it leads to. Therefore ids lead to one state at most, each taken in the region
inside the one before, and two full paths through states of the same ids are one path. What is shown
of a machine at work determines the active paths, and the ids of the regions are not needed for it.
-/

namespace Statechart

variable {C E A : Type}

namespace Machine

/-- The ids of a region tell its states apart, and its candidates know the ids of their targets. -/
structure Region.Named (region : Region C E A) : Prop where
  distinct : (Declaration.siblings region).Nodup
  targets : ∀ state ∈ region.states, ∀ kind, ∀ candidate ∈ state.label.candidates kind,
    (Declaration.siblings region)[candidate.target]? = some candidate.targetId

def Region.WellNamed (region : Region C E A) : Prop :=
  ∀ inner, region.Encloses inner → Region.Named inner

theorem Region.WellNamed.named {region : Region C E A} (hRegion : Region.WellNamed region) :
    Region.Named region :=
  hRegion region (.here region)

theorem Region.WellNamed.nested {region inner : Region C E A} {state : State C E A}
    (hRegion : Region.WellNamed region) (hState : state ∈ region.states)
    (hInner : state.nested = some inner) : Region.WellNamed inner :=
  fun next hNext => hRegion next (.inside hState hInner hNext)

theorem getElem?_siblings {region : Region C E A} {index : Nat} {state : State C E A}
    (hState : region.states[index]? = some state) :
    (Declaration.siblings region)[index]? = some state.label.id := by
  rw [Declaration.siblings, List.getElem?_map, hState]
  rfl

theorem Region.Named.index_unique {region : Region C E A} (hRegion : Region.Named region)
    {index index' : Nat} {state state' : State C E A}
    (hState : region.states[index]? = some state) (hState' : region.states[index']? = some state')
    (hSame : state.label.id = state'.label.id) : index = index' := by
  have hIndex := getElem?_siblings hState
  rw [hSame] at hIndex
  exact (Declaration.getElem?_eq_some_iff_of_nodup hRegion.distinct
    (getElem?_siblings hState') index).mp hIndex

theorem Region.Named.targetId_eq {region : Region C E A} (hRegion : Region.Named region)
    {state target : State C E A} (hState : state ∈ region.states) {kind : String}
    {candidate : Candidate C E} (hCandidate : candidate ∈ state.label.candidates kind)
    (hTarget : region.states[candidate.target]? = some target) :
    candidate.targetId = target.label.id := by
  have hId := hRegion.targets state hState kind candidate hCandidate
  rw [getElem?_siblings hTarget] at hId
  exact (Option.some.inj hId).symm

end Machine

/-! ## The names of a machine that was built -/

namespace Declaration

theorem Region.DeepImage.named {declared : Region C E A} {region : Machine.Region C E A}
    (hImage : Region.DeepImage declared region) (hFormed : Region.WellFormed declared) :
    Machine.Region.Named region := by
  constructor
  · rw [hImage.siblings_eq]
    exact hFormed.distinct
  · intro state hState kind candidate hCandidate
    obtain ⟨index, hIndex⟩ := List.mem_iff_getElem?.mp hState
    obtain ⟨_, _, hLabel, _⟩ := hImage.exists_state hIndex
    obtain ⟨transition, _, hTransition⟩ :=
      exists_mem_of_forall₂ (hLabel.candidates kind).flip hCandidate
    rw [hTransition.target, hTransition.targetId]

theorem Region.DeepImage.wellNamed {declared : Region C E A} {region : Machine.Region C E A}
    (hImage : Region.DeepImage declared region)
    (hFormed : ∀ inner, declared.Encloses inner → Region.WellFormed inner) :
    Machine.Region.WellNamed region := by
  intro inner hInner
  induction hInner generalizing declared with
  | here => exact hImage.named (hFormed declared (.here declared))
  | inside hState hNext _ ih =>
    obtain ⟨index, hIndex⟩ := List.mem_iff_getElem?.mp hState
    obtain ⟨source, hSource, _, hNested⟩ := hImage.exists_state hIndex
    obtain ⟨next, hNextDeclared, hDeep⟩ := hNested _ hNext
    exact ih hDeep fun other hOther =>
      hFormed other (.inside (List.mem_of_getElem? hSource) hNextDeclared hOther)

theorem wellNamed_of_build {declaration : Declaration C E A} {machine : Machine C E A}
    (hBuild : declaration.build = .ok machine) :
    ∀ region ∈ machine.regions, Machine.Region.WellNamed region := by
  intro region hRegion
  obtain ⟨index, hIndex⟩ := List.mem_iff_getElem?.mp hRegion
  obtain ⟨declared, hDeclared, hDeep⟩ := (image_of_build hBuild).exists_region hIndex
  exact hDeep.wellNamed fun inner hInner =>
    (wellFormed_of_build hBuild).regions inner ⟨declared, List.mem_of_getElem? hDeclared, hInner⟩

end Declaration

/-! ## Where names lead -/

namespace Machine

/-- Ids lead down from the top of a region, each to a state of the region inside the one before;
the positions are those of the states on the way. -/
inductive Region.LeadsTo : Region C E A → List String → List Nat → State C E A → Prop
  | here {region : Region C E A} {index : Nat} {state : State C E A} :
      region.states[index]? = some state → LeadsTo region [state.label.id] [index] state
  | inside {region next : Region C E A} {index : Nat} {outer state : State C E A}
      {names : List String} {path : List Nat} : region.states[index]? = some outer →
      outer.nested = some next → LeadsTo next names path state →
      LeadsTo region (outer.label.id :: names) (index :: path) state

namespace Region.LeadsTo

variable {region : Region C E A} {names : List String} {path path' : List Nat}
  {state state' : State C E A}

theorem names_ne_nil (hLeads : Region.LeadsTo region names path state) : names ≠ [] := by
  cases hLeads <;> exact List.cons_ne_nil _ _

/-- Where the ids of each region are distinct, ids lead to one place. -/
theorem unique (hLeads : Region.LeadsTo region names path state)
    (hLeads' : Region.LeadsTo region names path' state') (hRegion : Region.WellNamed region) :
    path = path' ∧ state = state' := by
  generalize hNames : names = other at hLeads'
  induction hLeads generalizing other path' state' with
  | here hState =>
    cases hLeads' with
    | here hState' =>
      obtain rfl := hRegion.named.index_unique hState hState' (List.cons.inj hNames).1
      cases hState.symm.trans hState'
      exact ⟨rfl, rfl⟩
    | inside _ _ hBelow' => exact absurd (List.cons.inj hNames).2.symm hBelow'.names_ne_nil
  | inside hOuter hNext hBelow ih =>
    cases hLeads' with
    | here => exact absurd (List.cons.inj hNames).2 hBelow.names_ne_nil
    | inside hOuter' hNext' hBelow' =>
      obtain rfl := hRegion.named.index_unique hOuter hOuter' (List.cons.inj hNames).1
      cases hOuter.symm.trans hOuter'
      cases hNext.symm.trans hNext'
      obtain ⟨rfl, rfl⟩ := ih (hRegion.nested (List.mem_of_getElem? hOuter) hNext) _
        (List.cons.inj hNames).2 hBelow'
      exact ⟨rfl, rfl⟩

end Region.LeadsTo

/-- The names along a full path lead to the atomic state at its end. -/
theorem Region.exists_leadsTo_names {region : Region C E A} {path : List Nat}
    (hPath : region.FullPath path) :
    ∃ state, (Node.along region.states path).getLast? = some state ∧ state.nested = none ∧
      Region.LeadsTo region (Region.names region path) path state := by
  induction hPath with
  | atomic hState hAtomic =>
    rw [Region.names_atomic hState]
    exact ⟨_, by simp [Node.along, hState], hAtomic, .here hState⟩
  | composite hState hInner hBelow ih =>
    obtain ⟨state, hLast, hAtomic, hLeads⟩ := ih
    rw [Region.names_composite hState hInner, Node.along_cons hState,
      Node.children_of_nested_eq_some hInner, List.getLast?_cons, hLast]
    exact ⟨state, rfl, hAtomic, .inside hState hInner hLeads⟩

/-- Full paths through states of the same ids are the same. -/
theorem Region.WellNamed.path_eq_of_names_eq {region : Region C E A}
    (hRegion : Region.WellNamed region) {path path' : List Nat} (hPath : region.FullPath path)
    (hPath' : region.FullPath path')
    (hNames : Region.names region path = Region.names region path') : path = path' := by
  obtain ⟨_, _, _, hLeads⟩ := Region.exists_leadsTo_names hPath
  obtain ⟨_, _, _, hLeads'⟩ := Region.exists_leadsTo_names hPath'
  rw [hNames] at hLeads
  exact (hLeads.unique hLeads' hRegion).1

theorem paths_eq_of_names_eq {regions : List (Region C E A)}
    (hNamed : ∀ region ∈ regions, Region.WellNamed region) {paths paths' : List (List Nat)}
    (hPaths : List.Forall₂ Region.FullPath regions paths)
    (hPaths' : List.Forall₂ Region.FullPath regions paths')
    (hNames : List.zipWith Region.names regions paths =
      List.zipWith Region.names regions paths') : paths = paths' := by
  induction hPaths generalizing paths' with
  | nil =>
    cases hPaths'
    rfl
  | @cons region path regions paths hPath _ ih =>
    cases hPaths' with
    | @cons _ path' _ paths' hPath' hRest' =>
      rw [List.zipWith_cons_cons, List.zipWith_cons_cons, List.cons.injEq] at hNames
      obtain ⟨hFirst, hRest⟩ := hNames
      obtain rfl := (hNamed region List.mem_cons_self).path_eq_of_names_eq hPath hPath' hFirst
      rw [ih (fun other h => hNamed other (List.mem_cons_of_mem _ h)) hRest' hRest]

end Machine

/-! ## What is shown of a machine -/

namespace Execution

variable {machine : Machine C E A} {active active' : List (List Nat)}

theorem map_states_describe (machine : Machine C E A) (active : List (List Nat)) :
    (describe machine active).regions.map (·.states) =
      List.zipWith Machine.Region.names machine.regions active := by
  rw [describe, List.map_zipWith]

/-- Where the ids of each region are distinct, the names shown determine the active paths. -/
theorem active_eq_of_map_states_eq
    (hNamed : ∀ region ∈ machine.regions, Machine.Region.WellNamed region)
    (hActive : List.Forall₂ Region.FullPath machine.regions active)
    (hActive' : List.Forall₂ Region.FullPath machine.regions active')
    (hSame : (describe machine active).regions.map (·.states) =
      (describe machine active').regions.map (·.states)) : active = active' := by
  rw [map_states_describe, map_states_describe] at hSame
  exact Machine.paths_eq_of_names_eq hNamed hActive hActive' hSame

theorem active_eq_of_describe_eq
    (hNamed : ∀ region ∈ machine.regions, Machine.Region.WellNamed region)
    (hActive : List.Forall₂ Region.FullPath machine.regions active)
    (hActive' : List.Forall₂ Region.FullPath machine.regions active')
    (hSame : describe machine active = describe machine active') : active = active' :=
  active_eq_of_map_states_eq hNamed hActive hActive' (by rw [hSame])

end Execution

end Statechart
