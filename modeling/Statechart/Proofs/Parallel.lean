import Statechart.Proofs.Calls
import Statechart.Proofs.Fallible

/-!
# Parallel regions

The regions of a machine share the events and nothing else. What a region does in a run is
determined by the region, the context and the events alone, so it is what the machine of that
region alone does. The whole machine shows its regions side by side: the actions of each call one
region after the other, and an event is accepted if some region accepts it.
-/

namespace Statechart

def Chart.single {σ ρ : Type} (id : String) (region : Region σ ρ) : Chart σ ρ :=
  ⟨id, [region]⟩

variable {C E A S : Type}

/-! ## Building region by region -/

namespace Declaration

theorem build_eq_ok_iff {declaration : Declaration C E A} {machine : Machine C E A} :
    declaration.build = .ok machine ↔
      declaration.violations = [] ∧ machine.id = declaration.id ∧
        List.Forall₂ (fun declared region => Region.resolve declared.label.id declared = .ok region)
          declaration.regions machine.regions := by
  rw [← mapM_eq_ok_iff]
  by_cases hViolations : declaration.violations = []
  · rw [build, hViolations, resolve]
    cases (declaration.regions.mapM fun region => Region.resolve region.label.id region :
      Except Violation (List (Machine.Region C E A))) with
    | error => exact ⟨by rintro ⟨⟩, by rintro ⟨_, _, ⟨⟩⟩⟩
    | ok regions =>
      obtain ⟨id, others⟩ := machine
      constructor
      · rintro ⟨⟩
        exact ⟨rfl, rfl, rfl⟩
      · rintro ⟨_, rfl, ⟨⟩⟩
        rfl
  · rw [build_of_violations_ne_nil hViolations]
    exact ⟨by rintro ⟨⟩, fun h => absurd h.1 hViolations⟩

theorem violations_eq_nil_of_subset {declaration other : Declaration C E A}
    (hViolations : declaration.violations = []) (hOther : other.regions ≠ [])
    (hSubset : other.regions ⊆ declaration.regions) : other.violations = [] := by
  rw [violations, List.append_eq_nil_iff, List.flatMap_eq_nil_iff] at hViolations ⊢
  refine ⟨by simpa using hOther, ?_⟩
  intro region hRegion
  exact hViolations.2 region (hSubset hRegion)

/-- A region of a declaration that is built is built in the same way alone. -/
theorem exists_build_single {declaration : Declaration C E A} {machine : Machine C E A}
    (hBuild : declaration.build = .ok machine) {index : Nat} {declared : Region C E A}
    (hDeclared : declaration.regions[index]? = some declared) :
    ∃ region, machine.regions[index]? = some region ∧
      ∀ id, build (.single id declared) = .ok (.single id region) := by
  obtain ⟨hViolations, _, hRegions⟩ := build_eq_ok_iff.mp hBuild
  obtain ⟨region, hRegion, hResolve⟩ := exists_getElem?_of_forall₂ hRegions hDeclared
  refine ⟨region, hRegion, ?_⟩
  intro id
  rw [build_eq_ok_iff]
  refine ⟨violations_eq_nil_of_subset hViolations (List.cons_ne_nil _ _) ?_, rfl,
    .cons hResolve .nil⟩
  intro other hOther
  cases List.mem_singleton.mp hOther
  exact List.mem_of_getElem? hDeclared

theorem exists_build_of_perm {declaration reordered : Declaration C E A} {machine : Machine C E A}
    (hBuild : declaration.build = .ok machine)
    (hPerm : reordered.regions.Perm declaration.regions) :
    ∃ machine', reordered.build = .ok machine' ∧
      ∀ (index index' : Nat) (declared : Region C E A),
        declaration.regions[index]? = some declared → reordered.regions[index']? = some declared →
          machine'.regions[index']? = machine.regions[index]? := by
  obtain ⟨hViolations, _, hRegions⟩ := build_eq_ok_iff.mp hBuild
  have hInhabited : reordered.regions ≠ [] := by
    have hFormed := (violations_eq_nil_iff declaration).mp hViolations
    exact fun hEmpty => hFormed.inhabited (List.nil_perm.mp (hEmpty ▸ hPerm))
  have hResolve : ∀ declared ∈ reordered.regions, ∃ region,
      Region.resolve declared.label.id declared = .ok region ∧
        Region.resolve declared.label.id declared = .ok region := by
    intro declared hDeclared
    obtain ⟨index, hIndex⟩ := List.mem_iff_getElem?.mp (hPerm.subset hDeclared)
    obtain ⟨region, _, hRegion⟩ := exists_getElem?_of_forall₂ hRegions hIndex
    exact ⟨region, hRegion, hRegion⟩
  obtain ⟨regions', _, hRegions'⟩ := exists_mapM_forall₂ hResolve
  refine ⟨⟨reordered.id, regions'⟩, ?_, ?_⟩
  · exact build_eq_ok_iff.mpr
      ⟨violations_eq_nil_of_subset hViolations hInhabited hPerm.subset, rfl, hRegions'⟩
  · intro index index' declared hDeclared hDeclared'
    obtain ⟨region, hIndex, hRegion⟩ := exists_getElem?_of_forall₂ hRegions hDeclared
    obtain ⟨region', hIndex', hRegion'⟩ := exists_getElem?_of_forall₂ hRegions' hDeclared'
    cases hRegion.symm.trans hRegion'
    exact hIndex'.trans hIndex.symm

end Declaration

/-! ## What a run shows -/

/-- What is seen of a region after a call: its active path, the actions it performed during the
call, and the events it would accept now. -/
structure Sight (E A : Type) where
  path : List Nat
  performed : List A
  accepts : E → Bool

namespace Execution

/-- A call that found the sink as it was before shows the regions, one after the other. -/
structure Shows [Event E] (before : Recorder A S) (outcome : Outcome C E A (Recorder A S))
    (sights : List (Sight E A)) : Prop where
  active : outcome.execution.active = some (sights.map (·.path))
  performed : outcome.execution.sink.performed = before.performed ++ sights.flatMap (·.performed)
  accepts : ∀ event, outcome.execution.accepts event = .ok (sights.any (·.accepts event))

inductive RunShows [Event E] : Recorder A S → List (Outcome C E A (Recorder A S)) →
    List (List (Sight E A)) → Prop
  | nil (before : Recorder A S) : RunShows before [] []
  | cons {before : Recorder A S} {outcome : Outcome C E A (Recorder A S)}
      {outcomes : List (Outcome C E A (Recorder A S))} {sights : List (Sight E A)}
      {more : List (List (Sight E A))} : Shows before outcome sights →
      RunShows outcome.execution.sink outcomes more →
      RunShows before (outcome :: outcomes) (sights :: more)

/-- The active path of a region after a call. -/
def pathIn (index : Nat) (outcome : Outcome C E A S) : Option (List Nat) :=
  outcome.execution.active.bind fun active => active[index]?

theorem RunShows.map_pathIn [Event E] {before : Recorder A S}
    {outcomes : List (Outcome C E A (Recorder A S))} {sights : List (List (Sight E A))}
    (hShows : RunShows before outcomes sights) (index : Nat) :
    outcomes.map (pathIn index) = sights.map fun regions => regions[index]?.map (·.path) := by
  induction hShows with
  | nil => rfl
  | cons hShows _ ih =>
    rw [List.map_cons, List.map_cons, ih, pathIn, hShows.active, Option.bind_some,
      List.getElem?_map]

/-- Starts, and processes the events one after the other. -/
def run [Event E] [Action A] [Sink A S] (execution : Execution C E A S)
    (events : List (E × Timestamp)) : Except Misuse (List (Outcome C E A S)) :=
  match execution.start with
  | .error misuse => .error misuse
  | .ok first =>
    match Flat.processAll first.execution events with
    | .error misuse => .error misuse
    | .ok rest => .ok (first :: rest)

end Execution

/-! ## The run of a region -/

section Run

variable [Event E] (context : C) (region : Machine.Region C E A)

namespace Machine

/-- What is seen of a region on a path, after it performed some actions. -/
def Region.sightOn (performed : List A) (path : List Nat) : Sight E A :=
  ⟨path, performed, fun event => Region.accepts context event region path⟩

/-- What is seen of a region after each of the events that it gets on a path. -/
def Region.sightAfter (path : List Nat) : List E → Nat → Sight E A
  | [], _ => Region.sightOn context region [] path
  | event :: _, 0 =>
    Region.sightOn context region (Region.performs context event region path)
      (Region.after context event region path)
  | event :: rest, step + 1 =>
    Region.sightAfter (Region.after context event region path) rest step

/-- What is seen of a region after its start and after each event. -/
def Region.sight (events : List E) : Nat → Sight E A
  | 0 => Region.sightOn context region (Region.startActions region) (Region.startPath region)
  | step + 1 => Region.sightAfter context region (Region.startPath region) events step

end Machine

end Run

namespace Execution

variable [Event E]

theorem accepts_of_active {execution : Execution C E A S} {path : Machine.Region C E A → List Nat}
    (hActive : execution.active = some (execution.machine.regions.map path)) (event : E) :
    execution.accepts event = .ok (execution.machine.regions.any fun region =>
      Machine.Region.accepts execution.context event region (path region)) := by
  rw [accepts, hActive]
  simp only [List.zipWith_map_right, List.zipWith_self, List.any_map, Function.id_comp]

variable [Sink A S]

theorem shows_of_active {before : Recorder A S} {outcome : Outcome C E A (Recorder A S)}
    {path : Machine.Region C E A → List Nat} {performed : Machine.Region C E A → List A}
    (hActive : outcome.execution.active = some (outcome.execution.machine.regions.map path))
    (hSink : outcome.execution.sink =
      Flat.performAll (outcome.execution.machine.regions.flatMap performed) before) :
    Shows before outcome (outcome.execution.machine.regions.map fun region =>
      Machine.Region.sightOn outcome.execution.context region (performed region) (path region)) := by
  refine ⟨?_, ?_, ?_⟩
  · rw [hActive, List.map_map]
    rfl
  · rw [hSink, Flat.performed_performAll, List.flatMap_map]
    rfl
  · intro event
    rw [accepts_of_active hActive, List.any_map]
    rfl

variable [Action A]

/-- Regions that are each on a path of their own go on as each of them does alone. -/
theorem exists_processAll_runShows (execution : Execution C E A (Recorder A S))
    (path : Machine.Region C E A → List Nat)
    (hActive : execution.active = some (execution.machine.regions.map path))
    (events : List (E × Timestamp)) :
    ∃ outcomes, Flat.processAll execution events = .ok outcomes ∧
      RunShows execution.sink outcomes ((List.range events.length).map fun step =>
        execution.machine.regions.map fun region =>
          Machine.Region.sightAfter execution.context region (path region) (events.map (·.1)) step) := by
  induction events generalizing execution path with
  | nil => exact ⟨[], rfl, .nil _⟩
  | cons event rest ih =>
    obtain ⟨event, time⟩ := event
    obtain ⟨outcome, hOutcome, hProcessed⟩ := exists_processed hActive event time
    have hAfter := hProcessed.active
    have hSink := hProcessed.sink
    rw [List.zipWith_map_right, List.zipWith_self] at hAfter hSink
    rw [← hProcessed.machine, ← hProcessed.context] at hAfter hSink ⊢
    obtain ⟨outcomes, hOutcomes, hRest⟩ := ih outcome.execution _ hAfter
    refine ⟨outcome :: outcomes, ?_, ?_⟩
    · rw [Flat.processAll, hOutcome]
      simp only [hOutcomes]
    · rw [List.length_cons, List.range_succ_eq_map, List.map_cons, List.map_map]
      refine .cons ?_ hRest
      exact shows_of_active hAfter hSink

theorem exists_run_runShows (machine : Machine C E A) (context : C) (sink : Recorder A S)
    {events : List E} {timed : List (E × Timestamp)} (hTimed : timed.map (·.1) = events) :
    ∃ outcomes, run (.new machine context sink) timed = .ok outcomes ∧
      RunShows sink outcomes ((List.range (events.length + 1)).map fun step =>
        machine.regions.map fun region => Machine.Region.sight context region events step) := by
  obtain ⟨first, hFirst, hStarted⟩ :=
    exists_started (rfl : (Execution.new machine context sink).active = none)
  have hMachine : first.execution.machine = machine := hStarted.machine
  have hContext : first.execution.context = context := hStarted.context
  have hActive : first.execution.active =
      some (first.execution.machine.regions.map Machine.Region.startPath) :=
    hMachine.symm ▸ hStarted.active
  have hSink : first.execution.sink = Flat.performAll
      (first.execution.machine.regions.flatMap Machine.Region.startActions) sink :=
    hMachine.symm ▸ hStarted.sink
  obtain ⟨rest, hRest, hShows⟩ := exists_processAll_runShows first.execution _ hActive timed
  refine ⟨first :: rest, ?_, ?_⟩
  · rw [run, hFirst]
    simp only [hRest]
  · rw [← hTimed, List.length_map, List.range_succ_eq_map, List.map_cons, List.map_map]
    have hFirst := shows_of_active hActive hSink
    rw [hMachine, hContext] at hFirst hShows
    exact .cons hFirst hShows

/-- Each region of a machine that is built makes a machine alone, and a run of the whole machine
shows side by side what the runs of these machines show, whenever their calls are made. Another
order of the regions leaves the path of each as it is. -/
theorem run_shows_regions_alone {declaration : Declaration C E A} {machine : Machine C E A}
    (hBuild : declaration.build = .ok machine) (context : C) (events : List E) :
    ∃ sight : Machine.Region C E A → Nat → Sight E A,
      (∀ (index : Nat) (declared : Declaration.Region C E A),
        declaration.regions[index]? = some declared →
        ∃ region, machine.regions[index]? = some region ∧
          ∀ (id : String) (sink : Recorder A S) (timed : List (E × Timestamp)),
            timed.map (·.1) = events →
              Declaration.build (.single id declared) = .ok (.single id region) ∧
              ∃ outcomes, run (.new (.single id region) context sink) timed = .ok outcomes ∧
                RunShows sink outcomes
                  ((List.range (events.length + 1)).map fun step => [sight region step])) ∧
      (∀ (sink : Recorder A S) (timed : List (E × Timestamp)), timed.map (·.1) = events →
        ∃ outcomes, run (.new machine context sink) timed = .ok outcomes ∧
          RunShows sink outcomes ((List.range (events.length + 1)).map fun step =>
            machine.regions.map fun region => sight region step)) ∧
      ∀ reordered : Declaration C E A, reordered.regions.Perm declaration.regions →
        ∃ machine', reordered.build = .ok machine' ∧
          ∀ (sink : Recorder A S) (timed : List (E × Timestamp)), timed.map (·.1) = events →
            ∃ outcomes outcomes',
              run (.new machine context sink) timed = .ok outcomes ∧
              run (.new machine' context sink) timed = .ok outcomes' ∧
              ∀ (index index' : Nat) (declared : Declaration.Region C E A),
                declaration.regions[index]? = some declared →
                reordered.regions[index']? = some declared →
                  outcomes'.map (pathIn index') = outcomes.map (pathIn index) := by
  refine ⟨fun region => Machine.Region.sight context region events, ?_, ?_, ?_⟩
  · intro index declared hDeclared
    obtain ⟨region, hRegion, hAlone⟩ := Declaration.exists_build_single hBuild hDeclared
    refine ⟨region, hRegion, ?_⟩
    intro id sink timed hTimed
    exact ⟨hAlone id, exists_run_runShows (.single id region) context sink hTimed⟩
  · intro sink timed hTimed
    exact exists_run_runShows machine context sink hTimed
  · intro reordered hPerm
    obtain ⟨machine', hBuild', hRegions⟩ := Declaration.exists_build_of_perm hBuild hPerm
    refine ⟨machine', hBuild', ?_⟩
    intro sink timed hTimed
    obtain ⟨outcomes, hOutcomes, hShows⟩ := exists_run_runShows machine context sink hTimed
    obtain ⟨outcomes', hOutcomes', hShows'⟩ := exists_run_runShows machine' context sink hTimed
    refine ⟨outcomes, outcomes', hOutcomes, hOutcomes', ?_⟩
    intro index index' declared hDeclared hDeclared'
    rw [hShows.map_pathIn, hShows'.map_pathIn, List.map_map, List.map_map]
    simp only [Function.comp_def, List.getElem?_map, hRegions index index' declared hDeclared
      hDeclared']

open MarkIV in
theorem policy_brew_region_runs_alone : ∃ machine, Policy.declaration.build = .ok machine ∧
    ∃ brew, machine.regions[0]? = some brew ∧
      Declaration.build (.single "brew" Policy.brewControl) = .ok (.single "brew" brew) ∧
      ∃ (outcomes alone : List (Outcome Unit MarkIV.Event MarkIV.Action (Recorder MarkIV.Action Unit))),
        run (.new machine () ⟨(), []⟩) [(.brewClicked false true, ⟨0, 0⟩), (.potRemoved, ⟨1, 0⟩),
          (.potPartial, ⟨2, 0⟩)] = .ok outcomes ∧
        run (.new (.single "brew" brew) () ⟨(), []⟩) [(.brewClicked false true, ⟨5, 0⟩),
          (.potRemoved, ⟨6, 0⟩), (.potPartial, ⟨7, 0⟩)] = .ok alone ∧
        outcomes.map (pathIn 0) = alone.map (pathIn 0) ∧
        alone.map (pathIn 0) = [some [0], some [1, 0], some [1, 1], some [1, 0]] ∧
        outcomes.map (pathIn 1) = [some [0], some [0], some [0], some [1]] := by
  refine ⟨_, rfl, ?_⟩
  obtain ⟨sight, hAlone, hWhole, _⟩ := run_shows_regions_alone (S := Unit)
    (show Policy.declaration.build = .ok _ from rfl) ()
    [.brewClicked false true, .potRemoved, .potPartial]
  obtain ⟨brew, hBrew, hRun⟩ := hAlone 0 Policy.brewControl rfl
  obtain ⟨hBuild, alone, hAlone, hShowsAlone⟩ := hRun "brew" ⟨(), []⟩
    [(.brewClicked false true, ⟨5, 0⟩), (.potRemoved, ⟨6, 0⟩), (.potPartial, ⟨7, 0⟩)] rfl
  obtain ⟨outcomes, hOutcomes, hShows⟩ := hWhole ⟨(), []⟩
    [(.brewClicked false true, ⟨0, 0⟩), (.potRemoved, ⟨1, 0⟩), (.potPartial, ⟨2, 0⟩)] rfl
  refine ⟨brew, hBrew, hBuild, outcomes, alone, hOutcomes, hAlone, ?_, ?_, ?_⟩
  · rw [hShows.map_pathIn, hShowsAlone.map_pathIn]
    cases hBrew
    rfl
  · cases hBrew
    cases hAlone
    rfl
  · cases hOutcomes
    rfl

end Execution

end Statechart
