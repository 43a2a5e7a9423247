import Statechart.Execution
import Statechart.Proofs.Reaction

/-!
# Reachable executions

The calls on an execution as data, and what a list of calls leaves behind. A refused call and a
question leave the execution as it is. As long as the machine was built from a declaration, each
region of a started execution is on a full path, from its top down to an atomic state.
-/

namespace Statechart

inductive Execution.Call (E : Type)
  | start
  | process (event : E) (time : Timestamp)
  | accepts (event : E)
  | configuration
  | withHistory (limit : Nat)

namespace Execution

variable {C E A S : Type}

section Calls

variable [Event E] [Action A] [Sink A S]

def call (execution : Execution C E A S) : Call E → Execution C E A S
  | .start =>
    match execution.start with
    | .ok outcome => outcome.execution
    | .error _ => execution
  | .process event time =>
    match execution.process event time with
    | .ok outcome => outcome.execution
    | .error _ => execution
  | .accepts _ => execution
  | .configuration => execution
  | .withHistory limit => execution.withHistory limit

def calls (execution : Execution C E A S) (calls : List (Call E)) : Execution C E A S :=
  calls.foldl call execution

theorem calls_cons (execution : Execution C E A S) (call : Call E) (rest : List (Call E)) :
    execution.calls (call :: rest) = (execution.call call).calls rest := rfl

theorem call_process_of_ok {execution : Execution C E A S} {event : E} {time : Timestamp}
    {outcome : Outcome C E A S} (hOutcome : execution.process event time = .ok outcome) :
    execution.call (.process event time) = outcome.execution := by
  rw [call, hOutcome]

theorem call_process_of_error {execution : Execution C E A S} {event : E} {time : Timestamp}
    {misuse : Misuse} (hMisuse : execution.process event time = .error misuse) :
    execution.call (.process event time) = execution := by
  rw [call, hMisuse]

end Calls

/-- Every region of the machine is on a full path, once the execution is started. -/
structure Full (execution : Execution C E A S) : Prop where
  sound : ∀ region ∈ execution.machine.regions, Machine.Region.Sound region
  active : ∀ active, execution.active = some active →
    List.Forall₂ Region.FullPath execution.machine.regions active

theorem forall₂_fullPath_startPaths {machine : Machine C E A}
    (hSound : ∀ region ∈ machine.regions, Machine.Region.Sound region) :
    List.Forall₂ Region.FullPath machine.regions (startPaths machine) := by
  rw [startPaths, List.forall₂_map_right_iff, List.forall₂_same]
  intro region hRegion
  exact (hSound region hRegion).fullPath_entryPath (hSound region hRegion).bounded.initial

theorem Full.new {machine : Machine C E A}
    (hSound : ∀ region ∈ machine.regions, Machine.Region.Sound region) (context : C) (sink : S) :
    (Execution.new machine context sink).Full :=
  ⟨hSound, by rintro _ ⟨⟩⟩

variable [Event E]

theorem settle_reactions (machine : Machine C E A) (context : C) (event : E)
    (active : List (List Nat)) :
    settle (reactions machine context event active) active =
      List.zipWith (Machine.Region.after context event) machine.regions active := by
  rw [settle, reactions]
  generalize machine.regions = regions
  induction regions generalizing active with
  | nil => rfl
  | cons region rest ih =>
    cases active with
    | nil => rfl
    | cons path paths =>
      simp only [List.zipWith_cons_cons, ih]
      rfl

theorem forall₂_fullPath_after (context : C) (event : E) {regions : List (Machine.Region C E A)}
    {active : List (List Nat)} (hSound : ∀ region ∈ regions, Machine.Region.Sound region)
    (hActive : List.Forall₂ Region.FullPath regions active) :
    List.Forall₂ Region.FullPath regions
      (List.zipWith (Machine.Region.after context event) regions active) := by
  induction hActive with
  | nil => exact .nil
  | cons hPath _ ih =>
    exact .cons ((hSound _ List.mem_cons_self).fullPath_after hPath)
      (ih fun region hRegion => hSound region (List.mem_cons_of_mem _ hRegion))

variable [Action A] [Sink A S]

theorem Full.call {execution : Execution C E A S} (hFull : execution.Full) (call : Call E) :
    (execution.call call).Full := by
  cases call with
  | start =>
    rw [Execution.call, Execution.start]
    cases hActive : execution.active with
    | some active => exact hFull
    | none =>
      refine ⟨hFull.sound, ?_⟩
      rintro _ ⟨⟩
      exact forall₂_fullPath_startPaths hFull.sound
  | process event time =>
    rw [Execution.call, Execution.process]
    cases hActive : execution.active with
    | none => exact hFull
    | some active =>
      refine ⟨hFull.sound, ?_⟩
      rintro _ ⟨⟩
      rw [settle_reactions]
      exact forall₂_fullPath_after _ _ hFull.sound (hFull.active active hActive)
  | accepts event => exact hFull
  | configuration => exact hFull
  | withHistory limit => exact ⟨hFull.sound, hFull.active⟩

theorem Full.calls {execution : Execution C E A S} (hFull : execution.Full)
    (calls : List (Call E)) : (execution.calls calls).Full := by
  induction calls generalizing execution with
  | nil => exact hFull
  | cons call rest ih => exact ih (hFull.call call)

theorem machine_call (execution : Execution C E A S) (call : Call E) :
    (execution.call call).machine = execution.machine := by
  cases call with
  | start =>
    rw [Execution.call, Execution.start]
    cases execution.active <;> rfl
  | process event time =>
    rw [Execution.call, Execution.process]
    cases execution.active <;> rfl
  | accepts event => rfl
  | configuration => rfl
  | withHistory limit => rfl

theorem machine_calls (execution : Execution C E A S) (calls : List (Call E)) :
    (execution.calls calls).machine = execution.machine := by
  induction calls generalizing execution with
  | nil => rfl
  | cons call rest ih => exact (ih (execution.call call)).trans (machine_call execution call)

theorem context_call (execution : Execution C E A S) (call : Call E) :
    (execution.call call).context = execution.context := by
  cases call with
  | start =>
    rw [Execution.call, start]
    cases execution.active <;> rfl
  | process event time =>
    rw [Execution.call, process]
    cases execution.active <;> rfl
  | accepts | configuration | withHistory => rfl

theorem context_calls (execution : Execution C E A S) (calls : List (Call E)) :
    (execution.calls calls).context = execution.context := by
  induction calls generalizing execution with
  | nil => rfl
  | cons call rest ih => exact (ih (execution.call call)).trans (context_call execution call)

end Execution

end Statechart
