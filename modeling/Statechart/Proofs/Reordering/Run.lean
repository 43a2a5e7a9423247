import Statechart.Proofs.Reordering.Reaction

/-!
# Runs of machines that are alike

The executions of two machines that are alike show the same after the same calls: each call is
answered alike, the sinks get the same actions, and the histories differ in their times at most.
-/

namespace Statechart

variable {C E A S : Type}

def Step.untimed (step : Step) : String × Configuration × Configuration × List String :=
  (step.event, step.before, step.after, step.actions)

/-- A history with its times left out. -/
def History.untimed (history : History) :
    List (String × Configuration × Configuration × List String) × Nat :=
  (history.steps.map Step.untimed, history.limit)

theorem History.untimed_record {history history' : History} {step step' : Step}
    (hHistory : history'.untimed = history.untimed) (hStep : step'.untimed = step.untimed) :
    (history'.record step').untimed = (history.record step).untimed := by
  obtain ⟨hSteps, hLimit⟩ := Prod.mk.inj hHistory
  have hLength : history'.steps.length = history.steps.length := by
    rw [← List.length_map Step.untimed, hSteps, List.length_map]
  rw [record, record, hLimit, hLength]
  by_cases hZero : history.limit = 0
  · rw [if_pos hZero, if_pos hZero]
    exact hHistory
  · rw [if_neg hZero, if_neg hZero, untimed, untimed, List.map_append, List.map_append]
    refine congrArg₂ Prod.mk (congrArg₂ (· ++ ·) ?_ (congrArg (fun entry => [entry]) hStep)) rfl
    by_cases hFull : history.steps.length = history.limit
    · rw [if_pos hFull, if_pos hFull, List.map_tail, List.map_tail, hSteps]
    · rw [if_neg hFull, if_neg hFull, hSteps]

theorem History.map_untimed_record {history history' : Option History} {step step' : Step}
    (hHistory : history'.map untimed = history.map untimed) (hStep : step'.untimed = step.untimed) :
    (history'.map fun history => history.record step').map untimed =
      (history.map fun history => history.record step).map untimed := by
  cases history with
  | none =>
    rw [Option.map_none, Option.map_eq_none_iff] at hHistory
    rw [hHistory]
    rfl
  | some held =>
    obtain ⟨held', rfl, hHeld⟩ := Option.map_eq_some_iff.mp hHistory
    exact congrArg some (History.untimed_record hHeld hStep)

def Outcome.shown (outcome : Outcome C E A S) : Configuration × List Log.Entry :=
  (outcome.configuration, outcome.log)

namespace Execution

/-- The same call, at any time. -/
inductive Call.SameButTime : Call E → Call E → Prop
  | process (event : E) (time time' : Timestamp) :
      SameButTime (.process event time) (.process event time')
  | same (call : Call E) : SameButTime call call

/-! ## Regions side by side -/

/-- Regions that are alike one by one, on paths through states of the same ids. -/
inductive Aligned : List (Machine.Region C E A) → List (Machine.Region C E A) → List (List Nat) →
    List (List Nat) → Prop
  | nil : Aligned [] [] [] []
  | cons {region region' : Machine.Region C E A} {path path' : List Nat}
      {regions regions' : List (Machine.Region C E A)} {paths paths' : List (List Nat)} :
      Machine.Region.Alike region region' → Machine.Region.TwinPaths region region' path path' →
      Aligned regions regions' paths paths' →
      Aligned (region :: regions) (region' :: regions') (path :: paths) (path' :: paths')

section Aligned

variable {regions regions' : List (Machine.Region C E A)} {paths paths' : List (List Nat)}

/-- What does not depend on positions is the same, region by region. -/
theorem Aligned.zipWith_eq {β : Type} {shown : Machine.Region C E A → List Nat → β}
    (hAligned : Aligned regions regions' paths paths')
    (hShown : ∀ region region' path path', Machine.Region.Alike region region' →
      Machine.Region.TwinPaths region region' path path' →
      shown region' path' = shown region path) :
    List.zipWith shown regions' paths' = List.zipWith shown regions paths := by
  induction hAligned with
  | nil => rfl
  | cons hRegion hPaths _ ih =>
    rw [List.zipWith_cons_cons, List.zipWith_cons_cons, hShown _ _ _ _ hRegion hPaths, ih]

theorem aligned_start (hRegions : List.Forall₂ Machine.Region.Alike regions regions') :
    Aligned regions regions' (regions.map Machine.Region.startPath)
      (regions'.map Machine.Region.startPath) := by
  induction hRegions with
  | nil => exact .nil
  | cons hRegion _ ih => exact .cons hRegion (hRegion.twinPaths_entryPath hRegion.initial) ih

theorem Aligned.after [Event E] (context : C) (event : E)
    (hAligned : Aligned regions regions' paths paths') :
    Aligned regions regions' (List.zipWith (Machine.Region.after context event) regions paths)
      (List.zipWith (Machine.Region.after context event) regions' paths') := by
  induction hAligned with
  | nil => exact .nil
  | cons hRegion hPaths _ ih =>
    exact .cons hRegion (hRegion.twinPaths_after context event hPaths) ih

end Aligned

theorem startActions_eq {machine machine' : Machine C E A}
    (hRegions : List.Forall₂ Machine.Region.Alike machine.regions machine'.regions) :
    startActions machine' = startActions machine := by
  rw [startActions, startActions]
  generalize machine.regions = regions at hRegions ⊢
  generalize machine'.regions = regions' at hRegions ⊢
  induction hRegions with
  | nil => rfl
  | cons hRegion _ ih =>
    have hEntered := hRegion.twinPaths_entryPath hRegion.initial
    rw [List.flatMap_cons, List.flatMap_cons, ih, (hEntered.shown hRegion).2.1]

section Machines

variable {machine machine' : Machine C E A} {paths paths' : List (List Nat)}
  (hAligned : Aligned machine.regions machine'.regions paths paths')

include hAligned

theorem describe_eq : describe machine' paths' = describe machine paths := by
  refine congrArg Configuration.mk (hAligned.zipWith_eq ?_)
  intro region region' path path' hRegion hPaths
  rw [hRegion.id, (hPaths.shown hRegion).1]

variable [Event E] (context : C) (event : E)

theorem effects_reactions_eq : (reactions machine' context event paths').flatMap (·.effects) =
    (reactions machine context event paths).flatMap (·.effects) := by
  rw [List.flatMap_def, List.flatMap_def, reactions, reactions, List.map_zipWith, List.map_zipWith]
  refine congrArg List.flatten (hAligned.zipWith_eq ?_)
  intro region region' path path' hRegion hPaths
  exact (hRegion.react context event hPaths).effects

theorem any_moved_reactions_eq : (reactions machine' context event paths').any (·.moved) =
    (reactions machine context event paths).any (·.moved) := by
  have hMoved : (reactions machine' context event paths').map (·.moved) =
      (reactions machine context event paths).map (·.moved) := by
    rw [reactions, reactions, List.map_zipWith, List.map_zipWith]
    refine hAligned.zipWith_eq ?_
    intro region region' path path' hRegion hPaths
    exact (hRegion.react context event hPaths).moved
  have hAny := congrArg (fun moved => List.any moved id) hMoved
  rwa [List.any_map, List.any_map] at hAny

theorem accepts_eq : (List.zipWith (Machine.Region.accepts context event) machine'.regions
    paths').any id = (List.zipWith (Machine.Region.accepts context event) machine.regions
      paths).any id := by
  rw [hAligned.zipWith_eq]
  intro region region' path path' hRegion hPaths
  exact hRegion.accepts context event hPaths

theorem aligned_settle : Aligned machine.regions machine'.regions
    (settle (reactions machine context event paths) paths)
    (settle (reactions machine' context event paths') paths') := by
  rw [settle_reactions, settle_reactions]
  exact hAligned.after context event

end Machines

/-! ## Executions side by side -/

/-- Two executions of machines that are alike, at the same moment of a run. -/
structure Alike (execution execution' : Execution C E A S) : Prop where
  id : execution'.machine.id = execution.machine.id
  regions : List.Forall₂ Machine.Region.Alike execution.machine.regions execution'.machine.regions
  context : execution'.context = execution.context
  sink : execution'.sink = execution.sink
  active : Option.Rel (Aligned execution.machine.regions execution'.machine.regions)
    execution.active execution'.active
  history : execution'.history.map History.untimed = execution.history.map History.untimed

/-- Nothing that a caller can see tells two executions apart, the times in the histories aside. -/
structure ShowsSame [Event E] [Action A] [Sink A S] (execution execution' : Execution C E A S) :
    Prop where
  configuration : execution'.configuration = execution.configuration
  accepts : ∀ event, execution'.accepts event = execution.accepts event
  start : execution'.start.map Outcome.shown = execution.start.map Outcome.shown
  process : ∀ event time time', (execution'.process event time').map Outcome.shown =
    (execution.process event time).map Outcome.shown
  sink : execution'.sink = execution.sink
  history : execution'.history.map History.untimed = execution.history.map History.untimed

section Calls

variable [Action A] [Sink A S] {execution execution' : Execution C E A S}

theorem Alike.start (hAlike : Alike execution execution') :
    execution'.start.map Outcome.shown = execution.start.map Outcome.shown := by
  rcases rel_cases hAlike.active with ⟨hFresh, hFresh'⟩ | ⟨_, _, hActive, hActive', _⟩
  · have hShown : describe execution'.machine (startPaths execution'.machine) =
        describe execution.machine (startPaths execution.machine) :=
      describe_eq (aligned_start hAlike.regions)
    rw [Execution.start, Execution.start, hFresh, hFresh']
    simp only [Except.map, Outcome.shown, startActions_eq hAlike.regions, hShown, hAlike.sink,
      hAlike.id]
  · rw [Execution.start, Execution.start, hActive, hActive']

theorem Alike.call_start [Event E] (hAlike : Alike execution execution') :
    Alike (execution.call (.start : Call E)) (execution'.call (.start : Call E)) := by
  rcases rel_cases hAlike.active with ⟨hFresh, hFresh'⟩ | ⟨_, _, hActive, hActive', _⟩
  · rw [call, call, Execution.start, Execution.start, hFresh, hFresh']
    refine ⟨hAlike.id, hAlike.regions, hAlike.context, ?_, .some (aligned_start hAlike.regions),
      hAlike.history⟩
    exact congrArg₂ (fun actions sink => (perform (actions.map .fired) sink).1)
      (startActions_eq hAlike.regions) hAlike.sink
  · rw [call, call, Execution.start, Execution.start, hActive, hActive']
    exact hAlike

variable [Event E]

theorem Alike.process (hAlike : Alike execution execution') (event : E) (time time' : Timestamp) :
    (execution'.process event time').map Outcome.shown =
        (execution.process event time).map Outcome.shown ∧
      Alike (execution.call (.process event time)) (execution'.call (.process event time')) := by
  rw [call, call, Execution.process, Execution.process]
  rcases rel_cases hAlike.active with ⟨hFresh, hFresh'⟩ | ⟨_, _, hActive, hActive', hAligned⟩
  · rw [hFresh, hFresh']
    exact ⟨rfl, hAlike⟩
  · have hBefore := describe_eq hAligned
    have hEffects := effects_reactions_eq hAligned execution.context event
    have hMoved := any_moved_reactions_eq hAligned execution.context event
    have hSettled := aligned_settle hAligned execution.context event
    have hAfter := describe_eq hSettled
    rw [hActive, hActive', hAlike.context]
    constructor
    · simp only [Except.map, Outcome.shown, hEffects, hMoved, hAfter, hAlike.sink]
    · refine ⟨hAlike.id, hAlike.regions, rfl, ?_, .some hSettled, ?_⟩
      · exact congrArg₂ (fun effects sink => (perform effects sink).1) hEffects hAlike.sink
      · refine History.map_untimed_record hAlike.history ?_
        simp only [Step.untimed, hBefore, hAfter, hEffects]

theorem Alike.call (hAlike : Alike execution execution') {call call' : Call E}
    (hCall : Call.SameButTime call call') :
    Alike (execution.call call) (execution'.call call') := by
  cases hCall with
  | process event time time' => exact (hAlike.process event time time').2
  | same =>
    cases call with
    | start => exact hAlike.call_start
    | process event time => exact (hAlike.process event time time).2
    | accepts | configuration => exact hAlike
    | withHistory limit =>
      exact ⟨hAlike.id, hAlike.regions, hAlike.context, hAlike.sink, hAlike.active, rfl⟩

theorem Alike.calls (hAlike : Alike execution execution') {calls calls' : List (Call E)}
    (hCalls : List.Forall₂ Call.SameButTime calls calls') :
    Alike (execution.calls calls) (execution'.calls calls') := by
  induction hCalls generalizing execution execution' with
  | nil => exact hAlike
  | cons hCall _ ih => exact ih (hAlike.call hCall)

theorem Alike.showsSame (hAlike : Alike execution execution') : ShowsSame execution execution' where
  configuration := by
    rw [configuration, configuration]
    rcases rel_cases hAlike.active with ⟨hFresh, hFresh'⟩ | ⟨_, _, hActive, hActive', hAligned⟩
    · rw [hFresh, hFresh']
    · rw [hActive, hActive']
      exact congrArg Except.ok (describe_eq hAligned)
  accepts event := by
    rw [Execution.accepts, Execution.accepts, hAlike.context]
    rcases rel_cases hAlike.active with ⟨hFresh, hFresh'⟩ | ⟨_, _, hActive, hActive', hAligned⟩
    · rw [hFresh, hFresh']
    · rw [hActive, hActive']
      exact congrArg Except.ok (accepts_eq hAligned execution.context event)
  start := hAlike.start
  process event time time' := (hAlike.process event time time').1
  sink := hAlike.sink
  history := hAlike.history

end Calls

/-- The order in which the states of a region are declared does not show, at whatever depth: in any
other order the declaration is built too, and after the same calls, at any times, a caller sees the
same configuration, the same answers and log entries, the same actions and the same history. -/
theorem reordered_showsSame {declaration reordered : Declaration C E A} {machine : Machine C E A}
    [Event E] [Action A] [Sink A S] (hBuild : declaration.build = .ok machine)
    (hReordered : declaration.Reordered reordered) :
    ∃ machine', reordered.build = .ok machine' ∧
      ∀ (context : C) (sink : S) (calls calls' : List (Call E)),
        List.Forall₂ Call.SameButTime calls calls' →
        ShowsSame ((Execution.new machine context (⟨sink, []⟩ : Recorder A S)).calls calls)
          ((Execution.new machine' context ⟨sink, []⟩).calls calls') := by
  obtain ⟨machine', hBuild', hId, hRegions⟩ :=
    Declaration.exists_build_of_reordered hBuild hReordered
  refine ⟨machine', hBuild', ?_⟩
  intro context sink calls calls' hCalls
  have hNew : Alike (Execution.new machine context (⟨sink, []⟩ : Recorder A S))
      (Execution.new machine' context ⟨sink, []⟩) := ⟨hId, hRegions, rfl, rfl, .none, rfl⟩
  exact (hNew.calls hCalls).showsSame

open MarkIV in
theorem policy_reversed_showsSame : ∃ reordered : Declaration Unit MarkIV.Event MarkIV.Action,
    Policy.declaration.Reordered reordered ∧
    reordered.regions.map (fun region => Declaration.ids region.states) =
      [["brewComplete", "brewRun", "brewIdle"], ["warmRun", "warmIdle"]] ∧
    ∃ machine machine', Policy.declaration.build = .ok machine ∧ reordered.build = .ok machine' ∧
      ∃ now now' : Execution Unit MarkIV.Event MarkIV.Action (Recorder MarkIV.Action Unit),
        (Execution.new machine () ⟨(), []⟩).calls [.withHistory 1, .start,
          .process (.brewClicked false true) ⟨0, 0⟩, .process .potRemoved ⟨1, 0⟩] = now ∧
        (Execution.new machine' () ⟨(), []⟩).calls [.withHistory 1, .start,
          .process (.brewClicked false true) ⟨2, 0⟩, .process .potRemoved ⟨2, 0⟩] = now' ∧
        now.active = some [[1, 1], [0]] ∧ now'.active = some [[1, 0], [1]] ∧
        ShowsSame now now' := by
  let brewing : List (Declaration.State Unit MarkIV.Event MarkIV.Action) :=
    Policy.brewControl.states.map fun state =>
      (state.nested.map fun inner =>
        state.withNested ⟨inner.label, inner.states.reverse⟩).getD state
  let reordered : Declaration Unit MarkIV.Event MarkIV.Action := ⟨Policy.declaration.id,
    [⟨Policy.brewControl.label, brewing.reverse⟩,
      ⟨Policy.warmerControl.label, Policy.warmerControl.states.reverse⟩]⟩
  have hReordered : Policy.declaration.Reordered reordered := by
    refine ⟨rfl, .cons ⟨rfl, brewing, ?_, (List.reverse_perm _).symm⟩ (.cons ⟨rfl, _, ?_,
      (List.reverse_perm _).symm⟩ .nil)⟩
    · exact .cons (.atomic _) (.cons (.composite _ _ (.cons (.atomic _) (.cons (.atomic _) .nil))
        (List.reverse_perm _).symm) (.cons (.atomic _) .nil))
    · exact .cons (.atomic _) (.cons (.atomic _) .nil)
  obtain ⟨machine, hBuild⟩ : ∃ machine, Policy.declaration.build = .ok machine := ⟨_, rfl⟩
  obtain ⟨machine', hBuild', hShows⟩ :=
    reordered_showsSame (A := MarkIV.Action) (S := Unit) hBuild hReordered
  refine ⟨reordered, hReordered, rfl, machine, machine', hBuild, hBuild', _, _, rfl, rfl, ?_, ?_,
    hShows () () _ _ (.cons (.same _) (.cons (.same _) (.cons (.process _ _ _)
      (.cons (.process _ _ _) .nil))))⟩
  · cases hBuild
    rfl
  · cases hBuild'
    decide +kernel

end Execution

end Statechart
