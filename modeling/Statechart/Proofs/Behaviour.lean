import Statechart.Proofs.History.Run
import Statechart.Proofs.Reordering.Run

/-!
# Machines of one behaviour

Regions may differ in what is written in them and still do the same on every path. Executions of
machines whose regions do the same one by one, on the same paths and with the same sink, answer
every call alike, whatever histories they keep. What the calls add to the histories is alike too:
the clock shows in the times of the steps and nowhere else.
-/

namespace Statechart

variable {C E A S : Type} [Event E]

namespace Machine

/-- The second region does what the first one does, on whatever path. -/
structure Region.BehavesAs (region region' : Region C E A) : Prop where
  id : region'.label.id = region.label.id
  startPath : Region.startPath region' = Region.startPath region
  startActions : Region.startActions region' = Region.startActions region
  names : ∀ path, Region.names region' path = Region.names region path
  react : ∀ context event path,
    Region.react context event region' path = Region.react context event region path
  accepts : ∀ context event path,
    Region.accepts context event region' path = Region.accepts context event region path

theorem Region.BehavesAs.refl (region : Region C E A) : Region.BehavesAs region region :=
  ⟨rfl, rfl, rfl, fun _ => rfl, fun _ _ _ => rfl, fun _ _ _ => rfl⟩

structure BehavesAs (machine machine' : Machine C E A) : Prop where
  id : machine'.id = machine.id
  regions : List.Forall₂ Region.BehavesAs machine.regions machine'.regions

namespace BehavesAs

theorem refl (machine : Machine C E A) : BehavesAs machine machine :=
  ⟨rfl, List.forall₂_same.mpr fun region _ => .refl region⟩

variable {machine machine' : Machine C E A} (hMachine : BehavesAs machine machine')

include hMachine

theorem map_eq {β : Type} {shown : Region C E A → β}
    (hShown : ∀ region region', Region.BehavesAs region region' → shown region' = shown region) :
    machine'.regions.map shown = machine.regions.map shown :=
  map_eq_of_forall₂ hMachine.regions.flip
    fun region' region hRegion => hShown region region' hRegion

theorem zipWith_eq {β : Type} {shown : Region C E A → List Nat → β}
    (hShown : ∀ region region', Region.BehavesAs region region' →
      ∀ path, shown region' path = shown region path) (active : List (List Nat)) :
    List.zipWith shown machine'.regions active = List.zipWith shown machine.regions active := by
  obtain ⟨_, hRegions⟩ := hMachine
  generalize machine.regions = regions at hRegions ⊢
  generalize machine'.regions = regions' at hRegions ⊢
  induction hRegions generalizing active with
  | nil => rfl
  | cons hRegion _ ih =>
    cases active with
    | nil => rfl
    | cons path paths =>
      rw [List.zipWith_cons_cons, List.zipWith_cons_cons, hShown _ _ hRegion, ih]

theorem startPaths : Execution.startPaths machine' = Execution.startPaths machine :=
  hMachine.map_eq fun _ _ hRegion => hRegion.startPath

theorem startActions : Execution.startActions machine' = Execution.startActions machine := by
  rw [Execution.startActions, Execution.startActions, List.flatMap_def, List.flatMap_def]
  exact congrArg List.flatten (hMachine.map_eq fun _ _ hRegion => hRegion.startActions)

theorem describe (active : List (List Nat)) :
    Execution.describe machine' active = Execution.describe machine active := by
  refine congrArg Configuration.mk (hMachine.zipWith_eq ?_ active)
  intro region region' hRegion path
  rw [hRegion.id, hRegion.names]

theorem reactions (context : C) (event : E) (active : List (List Nat)) :
    Execution.reactions machine' context event active =
      Execution.reactions machine context event active :=
  hMachine.zipWith_eq (fun _ _ hRegion => hRegion.react context event) active

theorem accepts (context : C) (event : E) (active : List (List Nat)) :
    List.zipWith (Region.accepts context event) machine'.regions active =
      List.zipWith (Region.accepts context event) machine.regions active :=
  hMachine.zipWith_eq (fun _ _ hRegion => hRegion.accepts context event) active

end BehavesAs

end Machine

namespace Execution

/-- Two executions that do the same from here on. The histories are left out: no call looks at
them. -/
structure BehavesAs (execution execution' : Execution C E A S) : Prop where
  machine : Machine.BehavesAs execution.machine execution'.machine
  context : execution'.context = execution.context
  sink : execution'.sink = execution.sink
  active : execution'.active = execution.active

namespace BehavesAs

theorem refl (execution : Execution C E A S) : BehavesAs execution execution :=
  ⟨.refl _, rfl, rfl, rfl⟩

variable {execution execution' : Execution C E A S} (hBehaves : BehavesAs execution execution')

include hBehaves

theorem configuration : execution'.configuration = execution.configuration := by
  rw [Execution.configuration, Execution.configuration, hBehaves.active]
  cases execution.active with
  | none => rfl
  | some active => exact congrArg Except.ok (hBehaves.machine.describe active)

theorem accepts (event : E) : execution'.accepts event = execution.accepts event := by
  rw [Execution.accepts, Execution.accepts, hBehaves.active, hBehaves.context]
  cases execution.active with
  | none => rfl
  | some active => simp only [hBehaves.machine.accepts]

variable [Action A] [Sink A S]

theorem start : execution'.start.map Outcome.shown = execution.start.map Outcome.shown := by
  rw [Execution.start, Execution.start, hBehaves.active]
  cases execution.active with
  | some active => rfl
  | none =>
    simp only [Except.map, Outcome.shown, hBehaves.machine.startActions,
      hBehaves.machine.startPaths, hBehaves.machine.describe, hBehaves.machine.id, hBehaves.sink]

theorem process (event : E) (time time' : Timestamp) :
    (execution'.process event time').map Outcome.shown =
      (execution.process event time).map Outcome.shown := by
  rw [Execution.process, Execution.process, hBehaves.active, hBehaves.context]
  cases execution.active with
  | none => rfl
  | some active =>
    simp only [Except.map, Outcome.shown, hBehaves.machine.reactions,
      hBehaves.machine.describe, hBehaves.sink]

theorem call_start : BehavesAs (execution.call (.start : Call E)) (execution'.call .start) := by
  rw [call, call, Execution.start, Execution.start, hBehaves.active]
  cases hActive : execution.active with
  | some active => exact ⟨hBehaves.machine, hBehaves.context, hBehaves.sink, hBehaves.active⟩
  | none =>
    refine ⟨hBehaves.machine, hBehaves.context, ?_, congrArg some hBehaves.machine.startPaths⟩
    simp only [hBehaves.machine.startActions, hBehaves.sink]

theorem call_process (event : E) (time time' : Timestamp) :
    BehavesAs (execution.call (.process event time)) (execution'.call (.process event time')) := by
  rw [call, call, Execution.process, Execution.process, hBehaves.active, hBehaves.context]
  cases hActive : execution.active with
  | none => exact hBehaves
  | some active =>
    refine ⟨hBehaves.machine, rfl, ?_, ?_⟩
    · simp only [hBehaves.machine.reactions, hBehaves.sink]
    · simp only [hBehaves.machine.reactions]

theorem call {call call' : Call E} (hCall : Call.SameButTime call call') :
    BehavesAs (execution.call call) (execution'.call call') := by
  cases hCall with
  | process event time time' => exact hBehaves.call_process event time time'
  | same =>
    cases call with
    | start => exact hBehaves.call_start
    | process event time => exact hBehaves.call_process event time time
    | accepts | configuration => exact hBehaves
    | withHistory limit =>
      exact ⟨hBehaves.machine, hBehaves.context, hBehaves.sink, hBehaves.active⟩

/-- What a call does to the two histories: both begin anew, or both stay as they are, or both record
the same step, each at its own time. -/
theorem history_cases {call call' : Call E} (hCall : Call.SameButTime call call') :
    (∃ limit, (execution.call call).history = some (.withLimit limit) ∧
        (execution'.call call').history = some (.withLimit limit)) ∨
      ((execution.call call).history = execution.history ∧
        (execution'.call call').history = execution'.history) ∨
      ∃ (step : Step) (time' : Timestamp), (call' = call → time' = step.time) ∧
        (execution.call call).history = execution.history.map (·.record step) ∧
        (execution'.call call').history =
          execution'.history.map (·.record { step with time := time' }) := by
  by_cases hProcess : ∃ event time, call = .process event time
  · obtain ⟨event, time, rfl⟩ := hProcess
    obtain ⟨time', rfl⟩ : ∃ time', call' = .process event time' := by
      cases hCall <;> exact ⟨_, rfl⟩
    rw [Execution.call, Execution.call, Execution.process, Execution.process, hBehaves.active,
      hBehaves.context]
    cases hActive : execution.active with
    | none => exact Or.inr (Or.inl ⟨rfl, rfl⟩)
    | some active =>
      let reactions := reactions execution.machine execution.context event active
      refine Or.inr (Or.inr ⟨⟨Event.kind event, describe execution.machine active,
        describe execution.machine (settle reactions active),
        (Effect.actions (reactions.flatMap (·.effects))).map Action.name, time⟩, time', ?_, rfl, ?_⟩)
      · rintro ⟨⟩
        rfl
      · simp only [hBehaves.machine.reactions, hBehaves.machine.describe, reactions]
  · have hOther : ∀ event time, call ≠ .process event time :=
      fun event time h => hProcess ⟨event, time, h⟩
    cases hCall with
    | process event time => exact absurd rfl (hOther event time)
    | same =>
      by_cases hHistory : ∃ limit, call = .withHistory limit
      · obtain ⟨limit, rfl⟩ := hHistory
        exact Or.inl ⟨limit, rfl, rfl⟩
      · have hNoHistory : ∀ limit, call ≠ .withHistory limit := fun limit h => hHistory ⟨limit, h⟩
        exact Or.inr (Or.inl ⟨(history_call_of_ne_process execution hOther hNoHistory).1,
          (history_call_of_ne_process execution' hOther hNoHistory).1⟩)

theorem history_call (hHistory : execution'.history = execution.history) (call : Call E) :
    (execution'.call call).history = (execution.call call).history := by
  rcases hBehaves.history_cases (.same call) with
    ⟨limit, hNew, hNew'⟩ | ⟨hKept, hKept'⟩ | ⟨step, time', hTime, hStep, hStep'⟩
  · rw [hNew, hNew']
  · rw [hKept, hKept', hHistory]
  · rw [hStep, hStep', hTime rfl, hHistory]

theorem untimed_call
    (hHistory : execution'.history.map History.untimed = execution.history.map History.untimed)
    {call call' : Call E} (hCall : Call.SameButTime call call') :
    (execution'.call call').history.map History.untimed =
      (execution.call call).history.map History.untimed := by
  rcases hBehaves.history_cases hCall with
    ⟨limit, hNew, hNew'⟩ | ⟨hKept, hKept'⟩ | ⟨step, time', _, hStep, hStep'⟩
  · rw [hNew, hNew']
  · rw [hKept, hKept', hHistory]
  · rw [hStep, hStep']
    exact History.map_untimed_record hHistory rfl

/-! ## Runs of calls -/

theorem calls {calls calls' : List (Call E)} (hCalls : List.Forall₂ Call.SameButTime calls calls') :
    BehavesAs (execution.calls calls) (execution'.calls calls') := by
  induction hCalls generalizing execution execution' with
  | nil => exact hBehaves
  | cons hCall _ ih => exact ih (hBehaves.call hCall)

theorem history_calls (hHistory : execution'.history = execution.history) (calls : List (Call E)) :
    (execution'.calls calls).history = (execution.calls calls).history := by
  induction calls generalizing execution execution' with
  | nil => exact hHistory
  | cons call rest ih => exact ih (hBehaves.call (.same call)) (hBehaves.history_call hHistory call)

theorem untimed_calls
    (hHistory : execution'.history.map History.untimed = execution.history.map History.untimed)
    {calls calls' : List (Call E)} (hCalls : List.Forall₂ Call.SameButTime calls calls') :
    (execution'.calls calls').history.map History.untimed =
      (execution.calls calls).history.map History.untimed := by
  induction hCalls generalizing execution execution' with
  | nil => exact hHistory
  | cons hCall _ ih => exact ih (hBehaves.call hCall) (hBehaves.untimed_call hHistory hCall)

theorem showsSame
    (hHistory : execution'.history.map History.untimed = execution.history.map History.untimed) :
    ShowsSame execution execution' where
  configuration := hBehaves.configuration
  accepts := hBehaves.accepts
  start := hBehaves.start
  process := hBehaves.process
  sink := hBehaves.sink
  history := hHistory

end BehavesAs

end Execution

end Statechart
