import Statechart.Proofs.Dotted
import Statechart.Proofs.MarkIV.Policy
import Statechart.Proofs.Names

/-!
# States looked up by name

A dotted path is read as its ids, which lead down from the top of the first region of the given id.
In a machine that was built they lead to one state at most, and that state is found; nothing else
is. The names shown for an active path are such ids as long as none of them holds a dot, so that
the path as it is shown then finds the atomic state that is active.
-/

namespace Statechart

variable {C E A S : Type}

theorem find?_eq_some_iff_first {α : Type} (key : α → String) {list : List α} {id : String}
    {first : α} : list.find? (fun entry => key entry == id) = some first ↔
      ∃ index : Nat, list[index]? = some first ∧ key first = id ∧
        ∀ earlier < index, ∀ other, list[earlier]? = some other → key other ≠ id := by
  rw [List.find?_eq_some_iff_getElem]
  constructor
  · rintro ⟨hId, index, hIndex, hFirst, hEarlier⟩
    refine ⟨index, by rw [List.getElem?_eq_getElem hIndex, hFirst], eq_of_beq hId, ?_⟩
    intro earlier hBefore other hOther
    obtain ⟨_, rfl⟩ := List.getElem?_eq_some_iff.mp hOther
    simpa using hEarlier earlier hBefore
  · rintro ⟨index, hFirst, hId, hEarlier⟩
    obtain ⟨hIndex, hAt⟩ := List.getElem?_eq_some_iff.mp hFirst
    refine ⟨beq_iff_eq.mpr hId, index, hIndex, hAt, ?_⟩
    intro earlier hBefore
    simpa using hEarlier earlier hBefore _
      (List.getElem?_eq_getElem (Nat.lt_trans hBefore hIndex))

namespace Machine

/-! ## Looking down from a region -/

theorem Region.Named.state_eq_some_iff {region : Region C E A} (hRegion : Region.Named region)
    {id : String} {state : State C E A} :
    Region.state region id = some state ↔
      ∃ index : Nat, region.states[index]? = some state ∧ state.label.id = id := by
  constructor
  · intro hFound
    obtain ⟨index, hIndex⟩ := List.mem_iff_getElem?.mp (List.mem_of_find?_eq_some hFound)
    have hId := List.find?_some hFound
    exact ⟨index, hIndex, eq_of_beq hId⟩
  · rintro ⟨index, hIndex, rfl⟩
    cases hFound : Region.state region state.label.id with
    | none =>
      have hOther := List.find?_eq_none.mp hFound state (List.mem_of_getElem? hIndex)
      exact absurd (beq_self_eq_true _) hOther
    | some other =>
      obtain ⟨index', hIndex'⟩ := List.mem_iff_getElem?.mp (List.mem_of_find?_eq_some hFound)
      have hId := List.find?_some hFound
      obtain rfl := hRegion.index_unique hIndex hIndex' (eq_of_beq hId).symm
      exact hIndex'.symm.trans hIndex

theorem Region.find_cons (region : Region C E A) (id : String) {rest : List String}
    (hRest : rest ≠ []) : Region.find region (id :: rest) =
      (Region.state region id).bind fun state =>
        state.nested.bind fun next => Region.find next rest := by
  cases rest with
  | nil => exact absurd rfl hRest
  | cons => rfl

theorem Region.LeadsTo.find_eq {region : Region C E A} {names : List String} {path : List Nat}
    {state : State C E A} (hLeads : Region.LeadsTo region names path state)
    (hRegion : Region.WellNamed region) : Region.find region names = some state := by
  induction hLeads with
  | here hState => exact hRegion.named.state_eq_some_iff.mpr ⟨_, hState, rfl⟩
  | inside hOuter hNext hBelow ih =>
    rw [Region.find_cons _ _ hBelow.names_ne_nil,
      hRegion.named.state_eq_some_iff.mpr ⟨_, hOuter, rfl⟩, Option.bind_some, hNext,
      Option.bind_some]
    exact ih (hRegion.nested (List.mem_of_getElem? hOuter) hNext)

theorem Region.exists_leadsTo_of_find {names : List String} {region : Region C E A}
    {state : State C E A} (hRegion : Region.WellNamed region)
    (hFound : Region.find region names = some state) :
    ∃ path, Region.LeadsTo region names path state := by
  induction names generalizing region with
  | nil => cases hFound
  | cons id rest ih =>
    by_cases hRest : rest = []
    · subst hRest
      obtain ⟨index, hState, rfl⟩ := hRegion.named.state_eq_some_iff.mp hFound
      exact ⟨[index], .here hState⟩
    · rw [Region.find_cons _ _ hRest] at hFound
      obtain ⟨outer, hOuter, hInside⟩ := Option.bind_eq_some_iff.mp hFound
      obtain ⟨next, hNext, hBelow⟩ := Option.bind_eq_some_iff.mp hInside
      obtain ⟨index, hIndex, rfl⟩ := hRegion.named.state_eq_some_iff.mp hOuter
      obtain ⟨path, hLeads⟩ := ih (hRegion.nested (List.mem_of_getElem? hIndex) hNext) hBelow
      exact ⟨index :: path, .inside hIndex hNext hLeads⟩

/-! ## Looking up in a machine -/

/-- The first of the regions that go by an id. -/
def IsFirst (machine : Machine C E A) (id : String) (region : Region C E A) : Prop :=
  ∃ index : Nat, machine.regions[index]? = some region ∧ region.label.id = id ∧
    ∀ earlier < index, ∀ other, machine.regions[earlier]? = some other → other.label.id ≠ id

theorem region_eq_some_iff {machine : Machine C E A} {id : String} {region : Region C E A} :
    machine.region id = some region ↔ machine.IsFirst id region :=
  find?_eq_some_iff_first fun region : Region C E A => region.label.id

/-- A text stands for a state: it lists ids without dots, with a dot between neighbours, that lead to
the state from the top of the first region of the given id. -/
structure Addresses (machine : Machine C E A) (region path : String) (names : List String)
    (positions : List Nat) (state : State C E A) : Prop where
  inhabited : names ≠ []
  dotFree : ∀ id ∈ names, Dotted.DotFree id
  joined : path = Dotted.ofIds names
  leads : ∃ first, machine.IsFirst region first ∧ Region.LeadsTo first names positions state

section Built

variable {machine : Machine C E A} {region path : String}

theorem Addresses.ids_eq {names : List String} {positions : List Nat} {state : State C E A}
    (hAddresses : machine.Addresses region path names positions state) :
    Dotted.ids path = names :=
  Dotted.ids_eq_iff.mpr ⟨hAddresses.inhabited, hAddresses.dotFree, hAddresses.joined⟩

theorem findState_eq_some_iff (hNamed : ∀ region ∈ machine.regions, Region.WellNamed region)
    {state : State C E A} : machine.findState region path = some state ↔
      ∃ names positions, machine.Addresses region path names positions state := by
  have hFirst : ∀ {first}, machine.IsFirst region first → Region.WellNamed first := by
    rintro first ⟨index, hIndex, _⟩
    exact hNamed first (List.mem_of_getElem? hIndex)
  constructor
  · intro hFound
    obtain ⟨first, hRegion, hFound⟩ := Option.bind_eq_some_iff.mp hFound
    have hIsFirst := region_eq_some_iff.mp hRegion
    obtain ⟨positions, hLeads⟩ := Region.exists_leadsTo_of_find (hFirst hIsFirst) hFound
    obtain ⟨hNames, hDotFree, hJoined⟩ := Dotted.ids_eq_iff.mp (Eq.refl (Dotted.ids path))
    exact ⟨Dotted.ids path, positions, hNames, hDotFree, hJoined, first, hIsFirst, hLeads⟩
  · rintro ⟨names, positions, hAddresses⟩
    obtain ⟨first, hIsFirst, hLeads⟩ := hAddresses.leads
    refine Option.bind_eq_some_iff.mpr ⟨first, region_eq_some_iff.mpr hIsFirst, ?_⟩
    rw [hAddresses.ids_eq]
    exact hLeads.find_eq (hFirst hIsFirst)

theorem Addresses.unique (hNamed : ∀ region ∈ machine.regions, Region.WellNamed region)
    {names names' : List String} {positions positions' : List Nat} {state state' : State C E A}
    (hAddresses : machine.Addresses region path names positions state)
    (hAddresses' : machine.Addresses region path names' positions' state') :
    names = names' ∧ positions = positions' ∧ state = state' := by
  obtain rfl : names = names' := hAddresses.ids_eq.symm.trans hAddresses'.ids_eq
  obtain ⟨first, hIsFirst, hLeads⟩ := hAddresses.leads
  obtain ⟨first', hIsFirst', hLeads'⟩ := hAddresses'.leads
  have hRegion := region_eq_some_iff.mpr hIsFirst
  cases hRegion.symm.trans (region_eq_some_iff.mpr hIsFirst')
  obtain ⟨index, hIndex, _⟩ := hIsFirst
  exact ⟨rfl, hLeads.unique hLeads' (hNamed first (List.mem_of_getElem? hIndex))⟩

end Built

end Machine

/-! ## Looking up in a configuration -/

namespace Configuration

theorem isIn_iff {configuration : Configuration} {path : String} :
    configuration.isIn path = true ↔ ∃ active ∈ configuration.regions,
      ∃ names, names ≠ [] ∧ (∀ id ∈ names, Dotted.DotFree id) ∧
        path = Dotted.ofIds names ∧ names <+: active.states := by
  rw [isIn, List.any_eq_true]
  refine exists_congr fun active => and_congr_right fun _ => ?_
  rw [List.isPrefixOf_iff_prefix]
  constructor
  · intro hPrefix
    obtain ⟨hNames, hDotFree, hJoined⟩ := Dotted.ids_eq_iff.mp (Eq.refl (Dotted.ids path))
    exact ⟨_, hNames, hDotFree, hJoined, hPrefix⟩
  · rintro ⟨names, hNames, hDotFree, hJoined, hPrefix⟩
    rwa [Dotted.ids_eq_iff.mpr ⟨hNames, hDotFree, hJoined⟩]

theorem isIn_dotted {configuration : Configuration} {shown : ActivePath}
    (hShown : shown ∈ configuration.regions) (hNames : shown.states ≠ [])
    (hDotFree : ∀ id ∈ shown.states, Dotted.DotFree id) :
    configuration.isIn shown.dotted = true :=
  isIn_iff.mpr ⟨shown, hShown, shown.states, hNames, hDotFree, rfl, List.prefix_refl _⟩

theorem active_of_first {configuration : Configuration} {index : Nat} {shown : ActivePath}
    (hShown : configuration.regions[index]? = some shown)
    (hFirst : ∀ earlier < index, ∀ other, configuration.regions[earlier]? = some other →
      other.region ≠ shown.region) :
    configuration.active shown.region = some shown.states := by
  have hFound := (find?_eq_some_iff_first fun path : ActivePath => path.region).mpr
    ⟨index, hShown, rfl, hFirst⟩
  exact Option.map_eq_some_iff.mpr ⟨shown, hFound, rfl⟩

end Configuration

namespace Machine

/-- A state is found exactly where a text addresses it, which one text does for one state at most;
and a configuration is in exactly what the first names of one of its active paths write. -/
theorem findState_iff_addresses {declaration : Declaration C E A} {machine : Machine C E A}
    (hBuild : declaration.build = .ok machine) (region path : String) :
    (∀ state, machine.findState region path = some state ↔
        ∃ names positions, machine.Addresses region path names positions state) ∧
      (∀ names names' positions positions' state state',
        machine.Addresses region path names positions state →
        machine.Addresses region path names' positions' state' →
        names = names' ∧ positions = positions' ∧ state = state') ∧
      (machine.findState region path = none ↔
        ¬ ∃ names positions state, machine.Addresses region path names positions state) ∧
      ∀ configuration : Configuration, configuration.isIn path = true ↔
        ∃ active ∈ configuration.regions, ∃ names, names ≠ [] ∧
          (∀ id ∈ names, Dotted.DotFree id) ∧ path = Dotted.ofIds names ∧
          names <+: active.states := by
  have hNamed := Declaration.wellNamed_of_build hBuild
  refine ⟨fun state => findState_eq_some_iff hNamed, fun _ _ _ _ _ _ => Addresses.unique hNamed,
    ?_, fun configuration => Configuration.isIn_iff⟩
  rw [Option.eq_none_iff_forall_ne_some]
  constructor
  · rintro hNone ⟨names, positions, state, hAddresses⟩
    exact hNone state ((findState_eq_some_iff hNamed).mpr ⟨names, positions, hAddresses⟩)
  · intro hNowhere state hFound
    obtain ⟨names, positions, hAddresses⟩ := (findState_eq_some_iff hNamed).mp hFound
    exact hNowhere ⟨names, positions, state, hAddresses⟩

open MarkIV in
theorem policy_finds_waiting : ∃ machine, Policy.declaration.build = .ok machine ∧
    (∃ state positions, machine.findState "brewControl" "brewRun.waiting" = some state ∧
      machine.Addresses "brewControl" "brewRun.waiting" ["brewRun", "waiting"] positions state) ∧
    ¬ ∃ names positions state, machine.Addresses "brewControl" "waiting" names positions state := by
  obtain ⟨machine, hBuild⟩ : ∃ machine, Policy.declaration.build = .ok machine := ⟨_, rfl⟩
  obtain ⟨hFound, _, _, _⟩ := findState_iff_addresses hBuild "brewControl" "brewRun.waiting"
  obtain ⟨_, _, hNowhere, _⟩ := findState_iff_addresses hBuild "brewControl" "waiting"
  refine ⟨machine, hBuild, ?_, hNowhere.mp ?_⟩
  · obtain ⟨state, hState⟩ :
        ∃ state, machine.findState "brewControl" "brewRun.waiting" = some state := by
      cases hBuild
      exact ⟨_, rfl⟩
    obtain ⟨names, positions, hAddresses⟩ := (hFound state).mp hState
    have hNames : ["brewRun", "waiting"] = names := hAddresses.ids_eq
    exact ⟨state, positions, hState, hNames ▸ hAddresses⟩
  · cases hBuild
    rfl

end Machine

/-! ## The paths that a configuration shows -/

namespace Execution

/-- The atomic state that is active in a region, at the end of its index path. -/
def IsActive (execution : Execution C E A S) (index : Nat) (state : Machine.State C E A) : Prop :=
  ∃ region paths path, execution.machine.regions[index]? = some region ∧
    execution.active = some paths ∧ paths[index]? = some path ∧ region.FullPath path ∧
    (Node.along region.states path).getLast? = some state ∧ state.nested = none

theorem Full.exists_active {execution : Execution C E A S} (hFull : execution.Full)
    {configuration : Configuration} (hConfiguration : execution.configuration = .ok configuration) :
    ∃ paths, execution.active = some paths ∧
      List.Forall₂ Region.FullPath execution.machine.regions paths ∧
      configuration = describe execution.machine paths := by
  rw [Execution.configuration] at hConfiguration
  cases hActive : execution.active with
  | none =>
    rw [hActive] at hConfiguration
    cases hConfiguration
  | some paths =>
    rw [hActive] at hConfiguration
    cases hConfiguration
    exact ⟨paths, rfl, hFull.active paths hActive, rfl⟩

section Shown

variable {machine : Machine C E A} {paths : List (List Nat)} {index : Nat} {shown : ActivePath}

theorem exists_shown_of_region
    (hPaths : List.Forall₂ Region.FullPath machine.regions paths) {region : Machine.Region C E A}
    (hRegion : machine.regions[index]? = some region) :
    ∃ shown, (describe machine paths).regions[index]? = some shown ∧
      shown.region = region.label.id := by
  obtain ⟨path, hPath, _⟩ := exists_getElem?_of_forall₂ hPaths hRegion
  exact ⟨_, List.getElem?_zipWith_eq_some.mpr ⟨region, path, hRegion, hPath, rfl⟩, rfl⟩

/-- The first path shown for an id is that of the first region of the id. -/
theorem isFirst_of_first_shown
    (hPaths : List.Forall₂ Region.FullPath machine.regions paths) {region : Machine.Region C E A}
    (hRegion : machine.regions[index]? = some region) {id : String} (hId : region.label.id = id)
    (hFirst : ∀ earlier < index, ∀ other, (describe machine paths).regions[earlier]? = some other →
      other.region ≠ id) : machine.IsFirst id region := by
  refine ⟨index, hRegion, hId, ?_⟩
  intro earlier hBefore other hOther hSame
  obtain ⟨shown, hShown, hShownId⟩ := exists_shown_of_region hPaths hOther
  exact hFirst earlier hBefore shown hShown (hShownId.trans hSame)

end Shown

variable [Event E] [Action A] [Sink A S]

/-- A configuration is in each path it shows, as long as no id along it holds a dot. It answers the
path for the id of its region, as long as no region before goes by that id. Where both are so, the
atomic state that is active in the region is found by its path. -/
theorem shown_path_finds_active_state {declaration : Declaration C E A} {machine : Machine C E A}
    (hBuild : declaration.build = .ok machine) (context : C) (sink : S) (calls : List (Call E))
    {execution : Execution C E A S}
    (hCalls : (Execution.new machine context sink).calls calls = execution)
    {configuration : Configuration} (hConfiguration : execution.configuration = .ok configuration)
    {index : Nat} {shown : ActivePath} (hShown : configuration.regions[index]? = some shown) :
    ((∀ id ∈ shown.states, Dotted.DotFree id) → configuration.isIn shown.dotted = true) ∧
      ((∀ earlier < index, ∀ other, configuration.regions[earlier]? = some other →
        other.region ≠ shown.region) →
        configuration.active shown.region = some shown.states) ∧
      ∃ state, execution.IsActive index state ∧
        ((∀ id ∈ shown.states, Dotted.DotFree id) →
          (∀ earlier < index, ∀ other, configuration.regions[earlier]? = some other →
            other.region ≠ shown.region) →
          machine.findState shown.region shown.dotted = some state) := by
  have hFull : execution.Full :=
    hCalls ▸ (Full.new (Declaration.sound_of_build hBuild) context sink).calls calls
  obtain rfl : execution.machine = machine := hCalls ▸ machine_calls _ calls
  obtain ⟨paths, hActive, hPaths, rfl⟩ := hFull.exists_active hConfiguration
  obtain ⟨region, path, hRegion, hPath, rfl⟩ := List.getElem?_zipWith_eq_some.mp hShown
  have hFullPath := forall₂_getElem? hPaths hRegion hPath
  obtain ⟨state, hLast, hAtomic, hLeads⟩ := Machine.Region.exists_leadsTo_names hFullPath
  refine ⟨Configuration.isIn_dotted (List.mem_of_getElem? hShown) hLeads.names_ne_nil,
    Configuration.active_of_first hShown, state,
    ⟨region, paths, path, hRegion, hActive, hPath, hFullPath, hLast, hAtomic⟩, ?_⟩
  intro hDotFree hFirst
  have hIsFirst := isFirst_of_first_shown hPaths hRegion rfl hFirst
  exact (Machine.findState_eq_some_iff (Declaration.wellNamed_of_build hBuild)).mpr
    ⟨_, path, hLeads.names_ne_nil, hDotFree, rfl, region, hIsFirst, hLeads⟩

open MarkIV in
theorem policy_brewing_finds_active_state : ∃ machine, Policy.declaration.build = .ok machine ∧
    ∃ (execution : Execution Unit MarkIV.Event MarkIV.Action (Recorder MarkIV.Action Unit))
      (configuration : Configuration) (state : Machine.State Unit MarkIV.Event MarkIV.Action),
      (Execution.new machine () ⟨(), []⟩).calls [.start, .process (.brewClicked false true) ⟨0, 0⟩] =
        execution ∧ execution.configuration = .ok configuration ∧
      configuration.regions[0]? = some ⟨"brewControl", ["brewRun", "brewing"]⟩ ∧
      configuration.isIn "brewRun.brewing" = true ∧
      configuration.active "brewControl" = some ["brewRun", "brewing"] ∧
      execution.IsActive 0 state ∧
      machine.findState "brewControl" "brewRun.brewing" = some state := by
  obtain ⟨machine, hBuild⟩ : ∃ machine, Policy.declaration.build = .ok machine := ⟨_, rfl⟩
  have hShown : ∃ configuration : Configuration,
      ((Execution.new machine () (⟨(), []⟩ : Recorder MarkIV.Action Unit)).calls
        [.start, .process (.brewClicked false true) ⟨0, 0⟩]).configuration = .ok configuration ∧
      configuration.regions[0]? = some ⟨"brewControl", ["brewRun", "brewing"]⟩ := by
    cases hBuild
    exact ⟨_, rfl, rfl⟩
  obtain ⟨configuration, hConfiguration, hShown⟩ := hShown
  obtain ⟨hIsIn, hAnswers, state, hState, hFound⟩ :=
    shown_path_finds_active_state hBuild () (⟨(), []⟩ : Recorder MarkIV.Action Unit)
      [.start, .process (.brewClicked false true) ⟨0, 0⟩] rfl hConfiguration hShown
  have hDotFree : ∀ id ∈ ["brewRun", "brewing"], Dotted.DotFree id := by decide
  exact ⟨machine, hBuild, _, configuration, state, rfl, hConfiguration, hShown, hIsIn hDotFree,
    hAnswers fun _ hBefore => absurd hBefore (Nat.not_lt_zero _), hState,
    hFound hDotFree fun _ hBefore => absurd hBefore (Nat.not_lt_zero _)⟩

/-- Two regions of one id, and in the first of them a state whose id holds a dot. -/
def plates : Declaration Unit MarkIV.Event MarkIV.Action :=
  Declaration.named "plates"
    |>.withRegion
      (Declaration.Region.named "plate"
        |>.withInitial "keep.warm"
        |>.withState (Declaration.State.named "keep.warm"))
    |>.withRegion
      (Declaration.Region.named "plate"
        |>.withInitial "off"
        |>.withState (Declaration.State.named "off"))

/-- The machine is built, and neither of its active paths is found as it is shown. -/
theorem plates_not_found : ∃ machine, plates.build = .ok machine ∧
    ∃ (execution : Execution Unit MarkIV.Event MarkIV.Action (Recorder MarkIV.Action Unit))
      (configuration : Configuration),
      (Execution.new machine () ⟨(), []⟩).calls [.start] = execution ∧
      execution.configuration = .ok configuration ∧
      configuration.regions = [⟨"plate", ["keep.warm"]⟩, ⟨"plate", ["off"]⟩] ∧
      configuration.isIn (ActivePath.dotted ⟨"plate", ["keep.warm"]⟩) = false ∧
      machine.findState "plate" (ActivePath.dotted ⟨"plate", ["keep.warm"]⟩) = none ∧
      configuration.active "plate" ≠ some ["off"] ∧
      machine.findState "plate" (ActivePath.dotted ⟨"plate", ["off"]⟩) = none := by
  refine ⟨_, rfl, _, _, rfl, rfl, rfl, ?_, rfl, ?_, rfl⟩
  · rfl
  · decide

end Execution

end Statechart
