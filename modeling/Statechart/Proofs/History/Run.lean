import Statechart.Proofs.Calls
import Statechart.Proofs.History

/-!
# The history of a run

From the call that asks for a history on, every event that is processed is recorded as it went: its
kind, the configuration before it, the configuration that was answered and the actions that the
sink received. Refused calls, questions and the start record nothing.
-/

namespace Statechart

variable {C E A S : Type}

/-- A call that processed an event: the execution it found, and what it answered. -/
structure Processing (C E A S : Type) where
  found : Execution C E A S
  event : E
  time : Timestamp
  outcome : Outcome C E A S

/-- The step gives a true account of the call. -/
structure Step.Recounts [Event E] [Action A] (processing : Processing C E A (Recorder A S))
    (step : Step) : Prop where
  event : step.event = Event.kind processing.event
  before : processing.found.configuration = .ok step.before
  after : processing.outcome.configuration = step.after
  actions : ∃ performed, processing.outcome.execution.sink.performed =
    processing.found.sink.performed ++ performed ∧ step.actions = performed.map Action.name
  time : step.time = processing.time

namespace Execution

variable [Event E] [Action A] [Sink A S]

/-- The calls that process an event and are not refused, in order. -/
def processings (execution : Execution C E A S) : List (Call E) → List (Processing C E A S)
  | [] => []
  | .process event time :: rest =>
    match execution.process event time with
    | .ok outcome => ⟨execution, event, time, outcome⟩ :: processings outcome.execution rest
    | .error _ => processings execution rest
  | call :: rest => processings (execution.call call) rest

/-! ## One call -/

theorem configuration_process {execution : Execution C E A S} {event : E} {time : Timestamp}
    {outcome : Outcome C E A S} (hOutcome : execution.process event time = .ok outcome) :
    outcome.execution.configuration = .ok outcome.configuration := by
  cases hActive : execution.active with
  | none =>
    rw [process, hActive] at hOutcome
    cases hOutcome
  | some paths =>
    rw [process, hActive] at hOutcome
    cases hOutcome
    rfl

theorem exists_recounts {execution : Execution C E A (Recorder A S)} {event : E} {time : Timestamp}
    {outcome : Outcome C E A (Recorder A S)}
    (hOutcome : execution.process event time = .ok outcome) :
    ∃ step, Step.Recounts ⟨execution, event, time, outcome⟩ step ∧
      outcome.execution.history = execution.history.map (·.record step) := by
  cases hActive : execution.active with
  | none =>
    rw [process, hActive] at hOutcome
    cases hOutcome
  | some paths =>
    rw [process, hActive] at hOutcome
    cases hOutcome
    refine ⟨_, ⟨rfl, ?_, rfl, ⟨_, ?_, rfl⟩, rfl⟩, rfl⟩
    · rw [configuration, hActive]
    · exact (congrArg Recorder.performed (Flat.sink_perform _ _)).trans
        (Flat.performed_performAll _ _)

/-- A call that processes no event and asks for no history leaves the history as it is, and the
configuration too once there is one. -/
theorem history_call_of_ne_process (execution : Execution C E A S) {call : Call E}
    (hProcess : ∀ event time, call ≠ .process event time)
    (hHistory : ∀ limit, call ≠ .withHistory limit) :
    (execution.call call).history = execution.history ∧
      ∀ configuration, execution.configuration = .ok configuration →
        (execution.call call).configuration = .ok configuration := by
  cases call with
  | start =>
    rw [Execution.call, start]
    cases hActive : execution.active with
    | some paths => exact ⟨rfl, fun _ h => h⟩
    | none =>
      refine ⟨rfl, ?_⟩
      intro configuration hConfiguration
      rw [Execution.configuration, hActive] at hConfiguration
      cases hConfiguration
  | process event time => exact absurd rfl (hProcess event time)
  | accepts | configuration => exact ⟨rfl, fun _ h => h⟩
  | withHistory limit => exact absurd rfl (hHistory limit)

/-! ## A run of calls -/

/-- While no other history is asked for, the calls record one step for each processed event. The
first one sets out from the configuration that there is, and each other one from where the one
before it ended. -/
theorem exists_steps (execution : Execution C E A (Recorder A S)) {calls : List (Call E)}
    (hCalls : ∀ limit, .withHistory limit ∉ calls) :
    ∃ steps, List.Forall₂ Step.Recounts (execution.processings calls) steps ∧
      (execution.calls calls).history =
        execution.history.map (fun history => steps.foldl History.record history) ∧
      steps.IsChain Step.Continues ∧
      ∀ first ∈ steps.head?, ∀ configuration, execution.configuration = .ok configuration →
        first.before = configuration := by
  induction calls generalizing execution with
  | nil => exact ⟨[], .nil, by simp [Execution.calls], .nil, by simp⟩
  | cons call rest ih =>
    have hRest : ∀ limit, .withHistory limit ∉ rest :=
      fun limit h => hCalls limit (List.mem_cons_of_mem _ h)
    have hHistory : ∀ limit, call ≠ .withHistory limit := by
      rintro limit rfl
      exact hCalls limit List.mem_cons_self
    rw [calls_cons]
    by_cases hProcess : ∃ event time, call = .process event time
    · obtain ⟨event, time, rfl⟩ := hProcess
      rw [processings]
      cases hAnswer : execution.process event time with
      | error misuse =>
        rw [call_process_of_error hAnswer]
        exact ih execution hRest
      | ok outcome =>
        rw [call_process_of_ok hAnswer]
        obtain ⟨step, hStep, hRecord⟩ := exists_recounts hAnswer
        obtain ⟨steps, hSteps, hHeld, hChain, hFirst⟩ := ih outcome.execution hRest
        refine ⟨step :: steps, .cons hStep hSteps, ?_, ?_, ?_⟩
        · rw [hHeld, hRecord, Option.map_map]
          rfl
        · rw [List.isChain_cons]
          exact ⟨fun next hNext => hStep.after.symm.trans
            (hFirst next hNext _ (configuration_process hAnswer)).symm, hChain⟩
        · rintro _ ⟨⟩ configuration hConfiguration
          cases hStep.before.symm.trans hConfiguration
          rfl
    · have hOther : ∀ event time, call ≠ .process event time :=
        fun event time h => hProcess ⟨event, time, h⟩
      obtain ⟨hSame, hConfiguration⟩ :=
        history_call_of_ne_process execution hOther hHistory
      obtain ⟨steps, hSteps, hHeld, hChain, hFirst⟩ := ih (execution.call call) hRest
      have hProcessings : execution.processings (call :: rest) =
          (execution.call call).processings rest := by
        cases call with
        | process event time => exact absurd rfl (hOther event time)
        | _ => rfl
      rw [hProcessings]
      refine ⟨steps, hSteps, hHeld.trans (hSame ▸ rfl), hChain, ?_⟩
      intro first hHead configuration h
      exact hFirst first hHead configuration (hConfiguration configuration h)

/-- Whatever was called before a history of some limit was asked for, and whatever is called then,
another history apart: the history holds the last processed events, up to its limit, each as it
went. They follow one another, and the path is what they go through without equal neighbours. -/
theorem history_holds_last_processings (machine : Machine C E A) (context : C) (sink : S)
    (earlier later : List (Call E)) (limit : Nat) (hLater : ∀ other, .withHistory other ∉ later)
    {restarted : Execution C E A (Recorder A S)}
    (hRestarted : (Execution.new machine context ⟨sink, []⟩).calls
      (earlier ++ [.withHistory limit]) = restarted) :
    ∃ history steps, (restarted.calls later).history = some history ∧
      List.Forall₂ Step.Recounts (restarted.processings later) steps ∧
      history.limit = limit ∧ history.steps <:+ steps ∧
      history.steps.length = min (restarted.processings later).length limit ∧
      history.steps.IsChain Step.Continues ∧
      (history.steps = [] → history.path = []) ∧
      (∀ oldest rest, history.steps = oldest :: rest →
        history.path = (oldest.before :: history.steps.map (·.after)).destutter (· ≠ ·)) ∧
      history.path.IsChain (· ≠ ·) := by
  have hEmpty : restarted.history = some (.withLimit limit) := by
    rw [← hRestarted, calls, List.foldl_append]
    rfl
  obtain ⟨steps, hSteps, hHeld, hChain, _⟩ := exists_steps restarted hLater
  rw [hEmpty, Option.map_some, History.foldl_record_withLimit] at hHeld
  have hSuffix : steps.rtake limit <:+ steps := List.drop_suffix _ _
  have hChain' : (steps.rtake limit).IsChain Step.Continues := hChain.suffix hSuffix
  refine ⟨_, steps, hHeld, hSteps, rfl, hSuffix, ?_, hChain', History.path_of_steps_eq_nil, ?_, ?_⟩
  · rw [hSteps.length_eq]
    exact History.length_rtake steps limit
  · intro oldest rest hOldest
    exact History.path_of_steps_eq_cons hOldest hChain'
  · exact History.isChain_path hChain'

open MarkIV in
theorem policy_history_after_ignored_click : ∃ machine, Policy.declaration.build = .ok machine ∧
    ∃ (restarted : Execution Unit MarkIV.Event MarkIV.Action (Recorder MarkIV.Action Unit))
      (history : History),
      (Execution.new machine () ⟨(), []⟩).calls ([.withHistory 7, .process .potPartial ⟨0, 0⟩,
        .start, .process .potPartial ⟨1, 0⟩] ++ [.withHistory 2]) = restarted ∧
      (restarted.calls [.process (.brewClicked false true) ⟨2, 0⟩, .start,
        .process (.brewClicked false true) ⟨3, 0⟩, .accepts .potRemoved,
        .process .potRemoved ⟨4, 0⟩]).history = some history ∧
      history.steps.map (fun step => (step.event, step.actions)) =
        [("BREW_CLICKED", []), ("POT_REMOVED", ["boilerOff", "valveOpen", "warmerOff"])] ∧
      history.steps.IsChain Step.Continues ∧
      history.path = [⟨[⟨"brewControl", ["brewRun", "brewing"]⟩, ⟨"warmerControl", ["warmRun"]⟩]⟩,
        ⟨[⟨"brewControl", ["brewRun", "waiting"]⟩, ⟨"warmerControl", ["warmIdle"]⟩]⟩] ∧
      history.path.IsChain (· ≠ ·) := by
  obtain ⟨machine, hBuild⟩ : ∃ machine, Policy.declaration.build = .ok machine := ⟨_, rfl⟩
  obtain ⟨history, _, hHistory, _, _, _, _, hChain, _, _, hPath⟩ :=
    history_holds_last_processings (E := MarkIV.Event) (S := Unit) machine () ()
      [.withHistory 7, .process .potPartial ⟨0, 0⟩, .start, .process .potPartial ⟨1, 0⟩]
      [.process (.brewClicked false true) ⟨2, 0⟩, .start,
        .process (.brewClicked false true) ⟨3, 0⟩, .accepts .potRemoved,
        .process .potRemoved ⟨4, 0⟩] 2 (by simp) rfl
  refine ⟨machine, hBuild, _, history, rfl, hHistory, ?_, hChain, ?_, hPath⟩
  · cases hBuild
    cases hHistory
    rfl
  · cases hBuild
    cases hHistory
    rfl

end Execution

end Statechart
