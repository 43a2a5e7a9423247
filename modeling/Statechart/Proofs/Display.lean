import Statechart.MarkIV.Hardware
import Statechart.Proofs.Dotted
import Statechart.Proofs.MarkIV.Policy
import Statechart.Proofs.Names

/-!
# What a display tells

The display of a configuration lists the dotted paths of its regions, with a comma and a blank
between neighbours. Where neither separator occurs in an id the display is read again by splitting
at the commas first and at the dots then; empty ids, ids that begin with a blank and braces in an id
are no obstacle. In a machine that was built the display therefore tells the active paths as well as
the configuration does. The ids of the regions are not displayed.
-/

namespace Statechart

variable {C E A S S' : Type}

/-! ## Reading a display -/

namespace Configuration

/-- An id in which neither separator of a display occurs. -/
def SeparatorFree (id : String) : Prop :=
  Dotted.DotFree id ∧ ',' ∉ id.toList

instance (id : String) : Decidable (SeparatorFree id) :=
  inferInstanceAs (Decidable (_ ∧ _))

/-- The dotted paths that a display lists: the pieces between the braces and the commas, the blank
before each piece but the first taken off. -/
def leavesShown (text : String) : List String :=
  match text.toList.tail.dropLast.splitOn ',' with
  | [] => []
  | first :: rest => (first :: rest.map List.tail).map String.ofList

theorem toList_display (configuration : Configuration) :
    configuration.display.toList =
      '{' :: ([',', ' '].intercalate (configuration.leaves.map String.toList) ++ ['}']) := by
  rw [display, String.toList_append, String.toList_append, String.toList_intercalate]
  rfl

/-- The blank of a separator can be counted to the piece after it. -/
theorem intercalate_comma_blank (first : List Char) (rest : List (List Char)) :
    [',', ' '].intercalate (first :: rest) =
      [','].intercalate (first :: rest.map (' ' :: ·)) := by
  induction rest generalizing first with
  | nil => rfl
  | cons next rest ih =>
    rw [List.intercalate_cons_cons, ih, List.map_cons, List.intercalate_cons_cons,
      List.intercalate_cons_cons_left]
    simp

theorem leavesShown_display {configuration : Configuration} (hRegions : configuration.regions ≠ [])
    (hLeaves : ∀ leaf ∈ configuration.leaves, ',' ∉ leaf.toList) :
    leavesShown configuration.display = configuration.leaves := by
  rw [leavesShown, toList_display, List.tail_cons, List.dropLast_concat]
  cases hListed : configuration.leaves with
  | nil => exact absurd (List.map_eq_nil_iff.mp hListed) hRegions
  | cons first rest =>
    rw [hListed, List.forall_mem_cons] at hLeaves
    obtain ⟨hFirst, hRest⟩ := hLeaves
    have hPieces : ∀ piece ∈ first.toList :: (rest.map String.toList).map (' ' :: ·),
        ',' ∉ piece := by
      simpa using ⟨hFirst, hRest⟩
    -- With the blanks counted to the pieces every separator is a single comma.
    rw [List.map_cons, intercalate_comma_blank,
      List.splitOn_intercalate ',' hPieces (List.cons_ne_nil _ _)]
    simp [Function.comp_def]

theorem comma_not_mem_ofIds {ids : List String} (hIds : ∀ id ∈ ids, ',' ∉ id.toList) :
    ',' ∉ (Dotted.ofIds ids).toList := by
  rw [Dotted.toList_ofIds]
  induction ids with
  | nil => exact List.not_mem_nil
  | cons first rest ih =>
    obtain ⟨hFirst, hRest⟩ := List.forall_mem_cons.mp hIds
    cases rest with
    | nil =>
      rw [List.map_cons, List.map_nil, List.intercalate_singleton]
      exact hFirst
    | cons next later =>
      rw [List.map_cons, List.map_cons, List.intercalate_cons_cons, List.mem_append,
        List.mem_append, not_or, not_or]
      exact ⟨⟨hFirst, by decide⟩, ih hRest⟩

/-- A configuration of which the display can be read again. -/
structure Legible (configuration : Configuration) : Prop where
  inhabited : configuration.regions ≠ []
  states : ∀ shown ∈ configuration.regions, shown.states ≠ []
  ids : ∀ shown ∈ configuration.regions, ∀ id ∈ shown.states, SeparatorFree id

namespace Legible

variable {configuration configuration' : Configuration}

theorem map_ids_leavesShown (hLegible : configuration.Legible) :
    (leavesShown configuration.display).map Dotted.ids =
      configuration.regions.map (·.states) := by
  have hLeaves : ∀ leaf ∈ configuration.leaves, ',' ∉ leaf.toList := by
    intro leaf hLeaf
    obtain ⟨shown, hShown, rfl⟩ := List.mem_map.mp hLeaf
    exact comma_not_mem_ofIds fun id hId => (hLegible.ids shown hShown id hId).2
  rw [leavesShown_display hLegible.inhabited hLeaves, leaves, List.map_map]
  refine List.map_congr_left fun shown hShown => ?_
  exact Dotted.ids_ofIds (hLegible.states shown hShown)
    fun id hId => (hLegible.ids shown hShown id hId).1

theorem map_states_eq_of_display_eq (hLegible : configuration.Legible)
    (hLegible' : configuration'.Legible) (hSame : configuration.display = configuration'.display) :
    configuration.regions.map (·.states) = configuration'.regions.map (·.states) := by
  rw [← hLegible.map_ids_leavesShown, ← hLegible'.map_ids_leavesShown, hSame]

end Legible

/-- A comma in an id passes for the end of a path, and a dot for the end of an id. -/
example : display ⟨[⟨"left", ["a, b"]⟩, ⟨"right", ["b"]⟩]⟩ =
      display ⟨[⟨"left", ["a"]⟩, ⟨"right", ["b, b"]⟩]⟩ ∧
    display ⟨[⟨"left", ["a.b"]⟩]⟩ = display ⟨[⟨"left", ["a", "b"]⟩]⟩ := by
  decide

end Configuration

/-! ## The displays of a machine -/

/-- In no id of a state, at whatever depth, a separator occurs. -/
def Machine.SeparatorFree (machine : Machine C E A) : Prop :=
  ∀ region, machine.HasRegion region → ∀ state ∈ region.states,
    Configuration.SeparatorFree state.label.id

instance (machine : Machine C E A) : Decidable machine.SeparatorFree :=
  decidable_of_iff (∀ label ∈ machine.labels, Configuration.SeparatorFree label.id)
    machine.forall_mem_labels_iff

theorem Machine.Region.exists_state_of_mem_names {region : Machine.Region C E A} {path : List Nat}
    (hPath : region.FullPath path) {id : String} (hId : id ∈ Machine.Region.names region path) :
    ∃ inner, region.Encloses inner ∧ ∃ state ∈ inner.states, state.label.id = id := by
  induction hPath with
  | atomic hState _ =>
    rw [Machine.Region.names_atomic hState, List.mem_singleton] at hId
    exact ⟨_, .here _, _, List.mem_of_getElem? hState, hId.symm⟩
  | composite hState hInner _ ih =>
    rw [Machine.Region.names_composite hState hInner] at hId
    have hMember := List.mem_of_getElem? hState
    rcases List.mem_cons.mp hId with hHere | hBelow
    · exact ⟨_, .here _, _, hMember, hHere.symm⟩
    · obtain ⟨inner, hEncloses, hId⟩ := ih hBelow
      exact ⟨inner, .inside hMember hInner hEncloses, hId⟩

theorem Declaration.regions_ne_nil_of_build {declaration : Declaration C E A}
    {machine : Machine C E A} (hBuild : declaration.build = .ok machine) :
    machine.regions ≠ [] := by
  have hInhabited := (wellFormed_of_build hBuild).inhabited
  rw [← List.length_pos_iff] at hInhabited ⊢
  exact (image_of_build hBuild).length ▸ hInhabited

namespace Execution

theorem legible_describe {machine : Machine C E A} (hRegions : machine.regions ≠ [])
    (hFree : machine.SeparatorFree) {active : List (List Nat)}
    (hActive : List.Forall₂ Region.FullPath machine.regions active) :
    (describe machine active).Legible := by
  have hShown : ∀ shown ∈ (describe machine active).regions, ∃ region ∈ machine.regions, ∃ path,
      region.FullPath path ∧ shown.states = Machine.Region.names region path := by
    intro shown hShown
    obtain ⟨index, hIndex⟩ := List.mem_iff_getElem?.mp hShown
    obtain ⟨region, path, hRegion, hPath, rfl⟩ := List.getElem?_zipWith_eq_some.mp hIndex
    exact ⟨region, List.mem_of_getElem? hRegion, path, forall₂_getElem? hActive hRegion hPath, rfl⟩
  constructor
  case inhabited =>
    intro hEmpty
    rcases List.zipWith_eq_nil_iff.mp hEmpty with hNone | rfl
    · exact hRegions hNone
    · exact hRegions (List.forall₂_nil_right_iff.mp hActive)
  case states =>
    intro shown hMember
    obtain ⟨region, _, path, hPath, hStates⟩ := hShown shown hMember
    obtain ⟨_, _, _, hLeads⟩ := Machine.Region.exists_leadsTo_names hPath
    exact hStates ▸ hLeads.names_ne_nil
  case ids =>
    intro shown hMember id hId
    obtain ⟨region, hRegion, path, hPath, hStates⟩ := hShown shown hMember
    rw [hStates] at hId
    obtain ⟨inner, hInner, state, hState, rfl⟩ :=
      Machine.Region.exists_state_of_mem_names hPath hId
    exact hFree inner ⟨region, hRegion, hInner⟩ state hState

section Reached

variable [Event E] [Action A] [Sink A S] [Sink A S']

/-- What is active after some calls, and the configuration that is answered for it. -/
theorem fullPaths_and_configuration_of_calls {declaration : Declaration C E A}
    {machine : Machine C E A} (hBuild : declaration.build = .ok machine) (context : C) (sink : S)
    (calls : List (Call E)) {active : List (List Nat)}
    (hActive : ((new machine context sink).calls calls).active = some active) :
    List.Forall₂ Region.FullPath machine.regions active ∧
      ((new machine context sink).calls calls).configuration = .ok (describe machine active) := by
  have hFull := (Full.new (Declaration.sound_of_build hBuild) context sink).calls calls
  have hPaths := hFull.active active hActive
  rw [configuration, hActive]
  rw [machine_calls] at hPaths ⊢
  exact ⟨hPaths, rfl⟩

/-- Whatever two runs of a machine that was built lead to, the configurations answered are the same
exactly if the same paths are active; and as long as neither a dot nor a comma occurs in the id of a
state, so are their displays. -/
theorem configurations_identify_active_paths {declaration : Declaration C E A}
    {machine : Machine C E A} (hBuild : declaration.build = .ok machine) (context context' : C)
    (sink : S) (sink' : S') (calls calls' : List (Call E)) {active active' : List (List Nat)}
    (hActive : ((new machine context sink).calls calls).active = some active)
    (hActive' : ((new machine context' sink').calls calls').active = some active') :
    ((new machine context sink).calls calls).configuration = .ok (describe machine active) ∧
      ((new machine context' sink').calls calls').configuration =
        .ok (describe machine active') ∧
      (describe machine active = describe machine active' ↔ active = active') ∧
      (machine.SeparatorFree →
        ((describe machine active).display = (describe machine active').display ↔
          active = active')) := by
  obtain ⟨hPaths, hAnswer⟩ := fullPaths_and_configuration_of_calls hBuild context sink calls hActive
  obtain ⟨hPaths', hAnswer'⟩ :=
    fullPaths_and_configuration_of_calls hBuild context' sink' calls' hActive'
  have hNamed := Declaration.wellNamed_of_build hBuild
  refine ⟨hAnswer, hAnswer', ⟨active_eq_of_describe_eq hNamed hPaths hPaths', ?_⟩, ?_⟩
  · rintro rfl
    rfl
  · intro hFree
    constructor
    · intro hSame
      -- The ids of the regions are lost in a display, and the paths can do without them.
      have hRegions := Declaration.regions_ne_nil_of_build hBuild
      have hLegible := legible_describe hRegions hFree hPaths
      have hLegible' := legible_describe hRegions hFree hPaths'
      exact active_eq_of_map_states_eq hNamed hPaths hPaths'
        (hLegible.map_states_eq_of_display_eq hLegible' hSame)
    · rintro rfl
      rfl

end Reached

open MarkIV in
theorem policy_brewing_told_from_waiting : ∃ machine, Policy.declaration.build = .ok machine ∧
    machine.SeparatorFree ∧ ∃ brewing waiting : List (List Nat),
      ((new machine () ()).calls [.start, .process (.brewClicked false true) ⟨0, 0⟩]).active =
        some brewing ∧
      ((new machine () (⟨{}⟩ : Hardware)).calls [.start,
        .process (.brewClicked false true) ⟨0, 0⟩, .process .potRemoved ⟨1, 0⟩]).active =
        some waiting ∧
      describe machine brewing ≠ describe machine waiting ∧
      (describe machine brewing).display ≠ (describe machine waiting).display := by
  obtain ⟨machine, hBuild⟩ : ∃ machine, Policy.declaration.build = .ok machine := ⟨_, rfl⟩
  have hFree : machine.SeparatorFree := by
    cases hBuild
    decide
  have hBrewing : ((new machine () ()).calls
      [.start, .process (.brewClicked false true) ⟨0, 0⟩]).active = some [[1, 0], [0]] := by
    cases hBuild
    rfl
  have hWaiting : ((new machine () (⟨{}⟩ : Hardware)).calls
      [.start, .process (.brewClicked false true) ⟨0, 0⟩, .process .potRemoved ⟨1, 0⟩]).active =
        some [[1, 1], [0]] := by
    cases hBuild
    rfl
  have hDiffer : [[1, 0], [0]] ≠ [[1, 1], [0]] := by decide
  obtain ⟨_, _, hConfigurations, hDisplays⟩ := configurations_identify_active_paths hBuild () ()
    () (⟨{}⟩ : Hardware) _ _ hBrewing hWaiting
  exact ⟨machine, hBuild, hFree, _, _, hBrewing, hWaiting, mt hConfigurations.mp hDiffer,
    mt (hDisplays hFree).mp hDiffer⟩

end Execution

end Statechart
