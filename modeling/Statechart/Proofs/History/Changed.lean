import Statechart.Proofs.Acceptance
import Statechart.Proofs.MarkIV.Policy
import Statechart.Proofs.Names

/-!
# Steps that change something

A step is marked as changed by comparing the configurations before and after it. In a machine that
was built a configuration determines the active paths, so that the mark says whether some region
took a transition to another path. A transition that enters the path it left is accepted and
performed, and the step of it is not marked.
-/

namespace Statechart

variable {C E A S : Type}

namespace History

theorem last_record {history : History} (hLimit : 0 < history.limit) (step : Step) :
    (history.record step).last = some step := by
  rw [record, if_neg (Nat.ne_of_gt hLimit), last]
  exact List.getLast?_concat

end History

namespace Execution

section After

variable [Event E]

/-- In some region a transition is taken that ends on another path than the active one. -/
def TakesTransitionAway (execution : Execution C E A S) (event : E)
    (outcome : Outcome C E A S) : Prop :=
  ∃ active active', execution.active = some active ∧ outcome.execution.active = some active' ∧
    ∃ (index : Nat) (region : Machine.Region C E A) (path path' : List Nat) (performed : List A),
      execution.machine.regions[index]? = some region ∧
        active[index]? = some path ∧ active'[index]? = some path' ∧
        Flat.Takes execution.context event region (Flat.view region path)
          (Flat.view region path') performed ∧ path' ≠ path

theorem moved_of_after_ne {context : C} {event : E} {region : Machine.Region C E A}
    {path : List Nat} (hAway : Machine.Region.after context event region path ≠ path) :
    (Machine.Region.react context event region path).moved = true := by
  rw [Reaction.moved, Option.isSome_iff_ne_none]
  intro hIdle
  rw [Machine.Region.after, hIdle] at hAway
  exact hAway rfl

variable [Action A] [Sink A S] {execution : Execution C E A S} {active : List (List Nat)}
  {event : E} {outcome : Outcome C E A S}

theorem Processed.takesTransitionAway_iff (hFull : execution.Full)
    (hActive : execution.active = some active)
    (hProcessed : Processed execution active event outcome) :
    execution.TakesTransitionAway event outcome ↔
      outcome.execution.active ≠ execution.active := by
  have hPaths := hFull.active active hActive
  constructor
  · rintro ⟨_, _, hActive', hAfter, index, _, path, path', _, _, hPath, hPath', _, hAway⟩ hSame
    cases hActive.symm.trans hActive'
    rw [hAfter, hActive] at hSame
    cases hSame
    exact hAway (Option.some.inj (hPath'.symm.trans hPath))
  · intro hDiffers
    rw [hProcessed.active, hActive] at hDiffers
    -- Regions that all end on the path they were on leave the list of paths as it is.
    obtain ⟨index, hIndex⟩ : ∃ index, (List.zipWith (Machine.Region.after execution.context event)
        execution.machine.regions active)[index]? ≠ active[index]? := by
      by_contra hSame
      exact hDiffers (congrArg some (List.ext_getElem? fun index =>
        not_not.mp fun hOther => hSame ⟨index, hOther⟩))
    rw [List.getElem?_zipWith] at hIndex
    cases hPath : active[index]? with
    | none =>
      rw [hPath] at hIndex
      cases hRegion : execution.machine.regions[index]? <;> simp [hRegion] at hIndex
    | some path =>
      obtain ⟨region, hRegion, hFullPath⟩ := exists_getElem?_of_forall₂ hPaths.flip hPath
      rw [hPath, hRegion] at hIndex
      have hAway : Machine.Region.after execution.context event region path ≠ path :=
        fun hSame => hIndex (congrArg some hSame)
      obtain ⟨performed, hTakes⟩ := (Machine.Region.moved_react_iff_takes
        (hFull.sound region (List.mem_of_getElem? hRegion)) hFullPath).mp (moved_of_after_ne hAway)
      refine ⟨active, _, hActive, hProcessed.active, index, region, path, _, performed, hRegion,
        hPath, ?_, hTakes, hAway⟩
      rw [List.getElem?_zipWith, hRegion, hPath]

theorem exists_recorded (hActive : execution.active = some active) {history : History}
    (hHistory : execution.history = some history) (event : E) (time : Timestamp) :
    ∃ outcome step, execution.process event time = .ok outcome ∧
      Processed execution active event outcome ∧
      outcome.execution.history = some (history.record step) ∧
      step.before = describe execution.machine active ∧ step.after = outcome.configuration := by
  obtain ⟨outcome, hOutcome, hProcessed⟩ := exists_processed hActive event time
  have hRecorded := hOutcome
  rw [process, hActive] at hRecorded
  cases hRecorded
  exact ⟨_, _, hOutcome, hProcessed, congrArg (Option.map (History.record · _)) hHistory, rfl, rfl⟩

/-- Whatever has been called on a machine that was built, once it is started and as long as its
history holds a step at all: the step of an event is marked as changed exactly if some region took
a transition to another path than it was on, whereas the event was accepted exactly if some region
took a transition, be it to the same path. -/
theorem last_changed_iff_takesTransitionAway {declaration : Declaration C E A}
    {machine : Machine C E A} (hBuild : declaration.build = .ok machine) (context : C) (sink : S)
    (calls : List (Call E)) {execution : Execution C E A S}
    (hCalls : (Execution.new machine context sink).calls calls = execution)
    (hStarted : execution.isStarted = true) {history : History}
    (hHistory : execution.history = some history) (hLimit : 0 < history.limit)
    (event : E) (time : Timestamp) :
    ∃ answer outcome recorded step, execution.accepts event = .ok answer ∧
      execution.process event time = .ok outcome ∧
      outcome.execution.history = some recorded ∧ recorded.last = some step ∧
      (step.changed = true ↔ execution.TakesTransitionAway event outcome) ∧
      (step.changed = false ↔ outcome.execution.active = execution.active) ∧
      (answer = true ↔ execution.TakesTransition event outcome) := by
  have hFull : execution.Full :=
    hCalls ▸ (Full.new (Declaration.sound_of_build hBuild) context sink).calls calls
  obtain rfl : execution.machine = machine := hCalls ▸ machine_calls _ calls
  have hNamed := Declaration.wellNamed_of_build hBuild
  obtain ⟨active, hActive⟩ := Option.isSome_iff_exists.mp hStarted
  obtain ⟨outcome, step, hOutcome, hProcessed, hRecorded, hBefore, hAfter⟩ :=
    exists_recorded hActive hHistory event time
  have hPaths := hFull.active active hActive
  have hUnchanged : step.changed = false ↔ outcome.execution.active = execution.active := by
    rw [Step.changed, decide_eq_false_iff_not, not_not, hBefore, hAfter, hProcessed.configuration,
      hProcessed.active, hActive, Option.some.injEq]
    constructor
    · intro hSame
      exact (active_eq_of_describe_eq hNamed hPaths
        (forall₂_fullPath_after execution.context event hFull.sound hPaths) hSame).symm
    · intro hSame
      rw [hSame]
  have hAccepts : execution.accepts event = .ok
      ((reactions execution.machine execution.context event active).any (·.moved)) := by
    rw [accepts, hActive]
    exact congrArg Except.ok (accepts_eq_any_moved hPaths)
  refine ⟨_, outcome, history.record step, step, hAccepts, hOutcome, hRecorded,
    History.last_record hLimit step, ?_, hUnchanged,
    (hProcessed.takesTransition_iff hFull hActive).symm⟩
  rw [hProcessed.takesTransitionAway_iff hFull hActive, ← Bool.not_eq_false, hUnchanged]

end After

open MarkIV in
theorem policy_click_is_changed : ∃ machine, Policy.declaration.build = .ok machine ∧
    ∃ (execution : Execution Unit MarkIV.Event MarkIV.Action (Recorder MarkIV.Action Unit))
      (recorded : History) (step : Step),
      (Execution.new machine () ⟨(), []⟩).calls [.withHistory 1, .start] = execution ∧
      (execution.call (.process (.brewClicked false true) ⟨0, 0⟩)).history = some recorded ∧
      recorded.last = some step ∧ step.changed = true ∧
      execution.accepts (.brewClicked false true) = .ok true := by
  obtain ⟨machine, hBuild⟩ : ∃ machine, Policy.declaration.build = .ok machine := ⟨_, rfl⟩
  have hExecution : ∃ execution : Execution Unit MarkIV.Event MarkIV.Action
      (Recorder MarkIV.Action Unit), (Execution.new machine () ⟨(), []⟩).calls
        [.withHistory 1, .start] = execution ∧ execution.isStarted = true ∧
      execution.history = some (.withLimit 1) ∧
      execution.active ≠ (execution.call (.process (.brewClicked false true) ⟨0, 0⟩)).active ∧
      execution.accepts (.brewClicked false true) = .ok true := by
    cases hBuild
    exact ⟨_, rfl, rfl, rfl, by decide, rfl⟩
  obtain ⟨execution, hCalls, hStarted, hHistory, hMoves, hAccepts⟩ := hExecution
  obtain ⟨_, outcome, recorded, step, _, hOutcome, hRecorded, hLast, _, hUnchanged, _⟩ :=
    last_changed_iff_takesTransitionAway hBuild () (⟨(), []⟩ : Recorder MarkIV.Action Unit)
      [.withHistory 1, .start] hCalls hStarted hHistory Nat.one_pos (.brewClicked false true) ⟨0, 0⟩
  have hCall := call_process_of_ok hOutcome
  refine ⟨machine, hBuild, execution, recorded, step, hCalls, hCall ▸ hRecorded, hLast, ?_, hAccepts⟩
  rw [← Bool.not_eq_false, hUnchanged, ← hCall]
  exact hMoves.symm

/-- A state whose only transition leads to itself. -/
def ticker : Declaration Unit MarkIV.Event MarkIV.Action :=
  Declaration.named "ticker"
    |>.withRegion
      (Declaration.Region.named "clock"
        |>.withInitial "tick"
        |>.withState
          (Declaration.State.named "tick"
            |>.withEntry [.lightOn]
            |>.withExit [.lightOff]
            |>.on "POT_REMOVED" "tick"))

/-- The event is accepted, the state is left and entered again, and the step is not marked. -/
theorem ticker_turns_unchanged : ∃ machine, ticker.build = .ok machine ∧
    ∃ (execution : Execution Unit MarkIV.Event MarkIV.Action (Recorder MarkIV.Action Unit))
      (outcome : Outcome Unit MarkIV.Event MarkIV.Action (Recorder MarkIV.Action Unit))
      (recorded : History) (step : Step),
      (Execution.new machine () ⟨(), []⟩).calls [.withHistory 1, .start] = execution ∧
      execution.accepts .potRemoved = .ok true ∧
      execution.process .potRemoved ⟨0, 0⟩ = .ok outcome ∧
      .transition "clock" "tick" "tick" "POT_REMOVED" ∈ outcome.log ∧
      outcome.execution.history = some recorded ∧ recorded.last = some step ∧
      step.actions = ["lightOff", "lightOn"] ∧ step.changed = false := by
  refine ⟨_, rfl, _, _, _, _, rfl, rfl, rfl, List.mem_cons_self, rfl, rfl, rfl, ?_⟩
  decide

end Execution

end Statechart

