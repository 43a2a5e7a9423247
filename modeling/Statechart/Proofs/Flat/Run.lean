import Statechart.MarkIV.Policy
import Statechart.Proofs.Flat

/-!
# Runs without recursion

The calls of an execution said of all regions at once: starting enters the chain of initial states
of each region, and processing lets each region take its step, in order, with the actions of one
region after those of the region before. The run of an execution exists, and it is the only run
that starts and proceeds in this way.
-/

namespace Statechart.Flat

variable {C E A S : Type}

/-- What is to be seen after a call: the active states of every region, the sink, and the
configuration answered. -/
structure Moment (C E A S : Type) where
  seats : List (List (Seat C E A))
  sink : S
  configuration : Configuration

def shown (machine : Machine C E A) (seats : List (List (Seat C E A))) : Configuration :=
  ⟨List.zipWith (fun region seats =>
    ⟨region.label.id, seats.map fun seat => seat.state.label.id⟩) machine.regions seats⟩

def performAll [Sink A S] (actions : List A) (sink : S) : S :=
  actions.foldl (fun sink action => (Sink.perform action sink).1) sink

theorem performed_performAll [Sink A S] (actions : List A) (recorder : Recorder A S) :
    (performAll actions recorder).performed = recorder.performed ++ actions := by
  induction actions generalizing recorder with
  | nil => exact (List.append_nil _).symm
  | cons action rest ih =>
    rw [performAll, List.foldl_cons]
    exact (ih _).trans (List.append_assoc _ [action] rest)

inductive Starts [Sink A S] (machine : Machine C E A) (sink : S) : Moment C E A S → Prop
  | intro {seats : List (List (Seat C E A))} :
      List.Forall₂ (fun region seats => Enters region region.label.initial seats)
        machine.regions seats →
      Starts machine sink ⟨seats, performAll (seats.flatMap entries) sink, shown machine seats⟩

inductive Processes [Sink A S] [Event E] (machine : Machine C E A) (context : C) (event : E)
    (before : Moment C E A S) : Moment C E A S → Prop
  | intro {answers : List (List (Seat C E A) × List A)} :
      List.Forall₂ (fun place answer => Steps context event place.1 place.2 answer.1 answer.2)
        (machine.regions.zip before.seats) answers →
      Processes machine context event before
        ⟨answers.map (·.1), performAll (answers.flatMap (·.2)) before.sink,
          shown machine (answers.map (·.1))⟩

inductive Run [Sink A S] [Event E] (machine : Machine C E A) (context : C) :
    Moment C E A S → List E → List (Moment C E A S) → Prop
  | nil (before : Moment C E A S) : Run machine context before [] []
  | cons {before after : Moment C E A S} {event : E} {events : List E}
      {moments : List (Moment C E A S)} : Processes machine context event before after →
      Run machine context after events moments →
      Run machine context before (event :: events) (after :: moments)

/-! ## There is one run -/

section Unique

variable [Sink A S]

theorem Starts.unique {machine : Machine C E A} {sink : S} {first second : Moment C E A S}
    (hFirst : Starts machine sink first) (hSecond : Starts machine sink second) :
    first = second := by
  cases hFirst with
  | intro hFirst =>
    cases hSecond with
    | intro hSecond =>
      have hUnique : Relator.RightUnique fun (region : Machine.Region C E A) seats =>
          Enters region region.label.initial seats := fun _ _ _ h h' => h.unique h'
      cases hUnique.forall₂ hFirst hSecond
      rfl

variable [Event E] {machine : Machine C E A} {context : C}

theorem Processes.unique {event : E} {before first second : Moment C E A S}
    (hFirst : Processes machine context event before first)
    (hSecond : Processes machine context event before second) : first = second := by
  cases hFirst with
  | intro hFirst =>
    cases hSecond with
    | intro hSecond =>
      have hUnique : Relator.RightUnique
          fun (place : Machine.Region C E A × List (Seat C E A)) (answer : _ × List A) =>
            Steps context event place.1 place.2 answer.1 answer.2 := by
        intro place answer answer' h h'
        obtain ⟨hAfter, hPerformed⟩ := h.unique h'
        exact Prod.ext hAfter hPerformed
      cases hUnique.forall₂ hFirst hSecond
      rfl

theorem Run.unique {events : List E} {before : Moment C E A S}
    {first second : List (Moment C E A S)} (hFirst : Run machine context before events first)
    (hSecond : Run machine context before events second) : first = second := by
  induction hFirst generalizing second with
  | nil =>
    cases hSecond
    rfl
  | cons hProcesses _ ih =>
    cases hSecond with
    | cons hProcesses' hRest =>
      cases hProcesses.unique hProcesses'
      rw [ih hRest]

end Unique

/-! ## The run of an execution -/

def seats (execution : Execution C E A S) : List (List (Seat C E A)) :=
  List.zipWith view execution.machine.regions (execution.active.getD [])

def moment (outcome : Outcome C E A S) : Moment C E A S :=
  ⟨seats outcome.execution, outcome.execution.sink, outcome.configuration⟩

theorem describe_eq_shown (machine : Machine C E A) (active : List (List Nat)) :
    Execution.describe machine active =
      shown machine (List.zipWith view machine.regions active) := by
  rw [Execution.describe, shown]
  congr 1
  generalize machine.regions = regions
  induction regions generalizing active with
  | nil => rfl
  | cons region rest ih =>
    cases active with
    | nil => rfl
    | cons path paths => simp only [List.zipWith_cons_cons, names_view, ih]

theorem map_position_zipWith_view {regions : List (Machine.Region C E A)}
    {active : List (List Nat)} (hActive : List.Forall₂ Region.FullPath regions active) :
    (List.zipWith view regions active).map (fun seats => seats.map Seat.position) = active := by
  induction hActive with
  | nil => rfl
  | cons hPath _ ih => rw [List.zipWith_cons_cons, List.map_cons, map_position_view hPath, ih]

theorem sink_perform [Action A] [Sink A S] (effects : List (Effect A)) (sink : S) :
    (Execution.perform effects sink).1 = performAll (Effect.actions effects) sink := by
  induction effects generalizing sink with
  | nil => rfl
  | cons effect rest ih =>
    cases effect with
    | refused | moved => exact ih sink
    | fired action => exact ih (Sink.perform action sink).1

theorem forall₂_enters_startPaths {machine : Machine C E A}
    (hSound : ∀ region ∈ machine.regions, Machine.Region.Sound region) :
    List.Forall₂ (fun region seats => Enters region region.label.initial seats) machine.regions
      (List.zipWith view machine.regions (Execution.startPaths machine)) := by
  rw [Execution.startPaths, List.zipWith_map_right, List.zipWith_self,
    List.forall₂_map_right_iff, List.forall₂_same]
  intro region hRegion
  exact enters_view (hSound region hRegion) (hSound region hRegion).bounded.initial

theorem startActions_eq_entries (machine : Machine C E A) :
    Execution.startActions machine =
      (List.zipWith view machine.regions (Execution.startPaths machine)).flatMap entries := by
  rw [Execution.startActions, Execution.startPaths, List.zipWith_map_right, List.zipWith_self,
    List.flatMap_map]
  simp only [entries_view]

theorem starts_startPaths [Sink A S] {machine : Machine C E A}
    (hSound : ∀ region ∈ machine.regions, Machine.Region.Sound region) (sink : S) :
    Starts machine sink
      ⟨List.zipWith view machine.regions (Execution.startPaths machine),
        performAll (Execution.startActions machine) sink,
        Execution.describe machine (Execution.startPaths machine)⟩ := by
  rw [startActions_eq_entries, describe_eq_shown]
  exact .intro (forall₂_enters_startPaths hSound)

section Process

variable [Event E] (context : C) (event : E)

theorem exists_answers {regions : List (Machine.Region C E A)} {active : List (List Nat)}
    (hSound : ∀ region ∈ regions, Machine.Region.Sound region)
    (hActive : List.Forall₂ Region.FullPath regions active) :
    ∃ answers : List (List (Seat C E A) × List A),
      List.Forall₂ (fun place answer => Steps context event place.1 place.2 answer.1 answer.2)
        (regions.zip (List.zipWith view regions active)) answers ∧
      answers.map (·.1) =
        List.zipWith view regions
          (List.zipWith (Machine.Region.after context event) regions active) ∧
      answers.flatMap (·.2) =
        Effect.actions ((List.zipWith (Machine.Region.react context event) regions active).flatMap
          (·.effects)) := by
  induction hActive with
  | nil => exact ⟨[], .nil, rfl, rfl⟩
  | @cons region path regions active hPath _ ih =>
    have hStep := steps_after context event (hSound region List.mem_cons_self) hPath
    obtain ⟨answers, hSteps, hAfter, hActions⟩ :=
      ih fun region hRegion => hSound region (List.mem_cons_of_mem _ hRegion)
    refine ⟨(_, _) :: answers, .cons hStep hSteps, ?_, ?_⟩
    · rw [List.map_cons, hAfter]
      rfl
    · rw [List.flatMap_cons, hActions, List.zipWith_cons_cons, List.flatMap_cons,
        Effect.actions_append]
      rfl

theorem processes_settle [Sink A S] {machine : Machine C E A} {active : List (List Nat)}
    (hSound : ∀ region ∈ machine.regions, Machine.Region.Sound region)
    (hActive : List.Forall₂ Region.FullPath machine.regions active) (sink : S)
    (configuration : Configuration) :
    Processes machine context event
      ⟨List.zipWith view machine.regions active, sink, configuration⟩
      ⟨List.zipWith view machine.regions
          (Execution.settle (Execution.reactions machine context event active) active),
        performAll (Effect.actions
          ((Execution.reactions machine context event active).flatMap (·.effects))) sink,
        Execution.describe machine
          (Execution.settle (Execution.reactions machine context event active) active)⟩ := by
  obtain ⟨answers, hSteps, hAfter, hActions⟩ := exists_answers context event hSound hActive
  rw [Execution.settle_reactions, describe_eq_shown, Execution.reactions, ← hAfter, ← hActions]
  exact .intro hSteps

end Process

/-- An execution after a call that was not refused: each region is on the full path of its seats,
and the machine and the context are those from before. -/
structure Continues (execution : Execution C E A S) (outcome : Outcome C E A S) : Prop where
  full : outcome.execution.Full
  active : outcome.execution.active =
    some ((moment outcome).seats.map fun seats => seats.map Seat.position)
  machine : outcome.execution.machine = execution.machine
  context : outcome.execution.context = execution.context

section Calls

variable [Action A] [Sink A S] {execution : Execution C E A S}

theorem start_starts (hFull : execution.Full) (hFresh : execution.active = none) :
    ∃ outcome, execution.start = .ok outcome ∧ Continues execution outcome ∧
      Starts execution.machine execution.sink (moment outcome) := by
  have hPaths := Execution.forall₂_fullPath_startPaths hFull.sound
  refine ⟨_, by rw [Execution.start, hFresh], ⟨⟨hFull.sound, ?_⟩, ?_, rfl, rfl⟩, ?_⟩
  · rintro _ ⟨⟩
    exact hPaths
  · exact congrArg some (map_position_zipWith_view hPaths).symm
  · rw [moment, sink_perform, Effect.actions_map_fired]
    exact starts_startPaths hFull.sound execution.sink

variable [Event E]

theorem process_processes (hFull : execution.Full) {active : List (List Nat)}
    (hActive : execution.active = some active) (event : E) (time : Timestamp)
    (configuration : Configuration) :
    ∃ outcome, execution.process event time = .ok outcome ∧ Continues execution outcome ∧
      Processes execution.machine execution.context event
        ⟨seats execution, execution.sink, configuration⟩ (moment outcome) := by
  have hPaths := hFull.active active hActive
  have hAfter := Execution.forall₂_fullPath_after execution.context event hFull.sound hPaths
  rw [← Execution.settle_reactions] at hAfter
  refine ⟨_, by rw [Execution.process, hActive], ⟨⟨hFull.sound, ?_⟩, ?_, rfl, rfl⟩, ?_⟩
  · rintro _ ⟨⟩
    exact hAfter
  · exact congrArg some (map_position_zipWith_view hAfter).symm
  · rw [moment, sink_perform, seats, hActive]
    exact processes_settle execution.context event hFull.sound hPaths execution.sink configuration

def processAll (execution : Execution C E A S) :
    List (E × Timestamp) → Except Misuse (List (Outcome C E A S))
  | [] => .ok []
  | (event, time) :: rest =>
    match execution.process event time with
    | .error misuse => .error misuse
    | .ok outcome =>
      match processAll outcome.execution rest with
      | .error misuse => .error misuse
      | .ok outcomes => .ok (outcome :: outcomes)

theorem processAll_run {before : Outcome C E A S} (hBefore : Continues execution before)
    (events : List (E × Timestamp)) :
    ∃ outcomes, processAll before.execution events = .ok outcomes ∧
      (∀ outcome ∈ outcomes, Continues execution outcome) ∧
      Run execution.machine execution.context (moment before) (events.map (·.1))
        (outcomes.map moment) := by
  -- Each outcome is full, on the first machine and in the first context.
  induction events generalizing before with
  | nil => exact ⟨[], rfl, by rintro _ ⟨⟩, .nil _⟩
  | cons event rest ih =>
    obtain ⟨event, time⟩ := event
    obtain ⟨outcome, hOutcome, hContinues, hProcesses⟩ :=
      process_processes hBefore.full hBefore.active event time before.configuration
    rw [hBefore.machine, hBefore.context] at hProcesses
    have hOutcome' : Continues execution outcome := ⟨hContinues.full, hContinues.active,
      hContinues.machine.trans hBefore.machine, hContinues.context.trans hBefore.context⟩
    obtain ⟨outcomes, hOutcomes, hRest, hRun⟩ := ih hOutcome'
    refine ⟨outcome :: outcomes, ?_, List.forall_mem_cons.mpr ⟨hOutcome', hRest⟩,
      .cons hProcesses hRun⟩
    rw [processAll, hOutcome]
    simp only [hOutcomes]

/-- A machine that was built starts and answers every event, each region keeps the positions of its
seats and no more, and what is to be seen is the flat run and no other. -/
theorem start_processAll_iff_run {declaration : Declaration C E A} {machine : Machine C E A}
    (hBuild : declaration.build = .ok machine) (context : C) (sink : S)
    (history : Option History) (events : List (E × Timestamp)) :
    ∃ first rest,
      ({ Execution.new machine context sink with history := history }).start = .ok first ∧
      processAll first.execution events = .ok rest ∧
      (∀ outcome ∈ first :: rest, outcome.execution.active =
        some ((moment outcome).seats.map fun seats => seats.map Seat.position)) ∧
      ∀ (started : Moment C E A S) (later : List (Moment C E A S)),
        Starts machine sink started ∧ Run machine context started (events.map (·.1)) later ↔
          started = moment first ∧ later = rest.map moment := by
  have hSound := Declaration.sound_of_build hBuild
  have hFull : ({ Execution.new machine context sink with history := history }).Full :=
    ⟨hSound, by rintro _ ⟨⟩⟩
  obtain ⟨first, hFirst, hContinues, hStarts⟩ := start_starts hFull rfl
  obtain ⟨rest, hRest, hAll, hRun⟩ := processAll_run hContinues events
  refine ⟨first, rest, hFirst, hRest, ?_, ?_⟩
  · intro outcome hOutcome
    rcases List.mem_cons.mp hOutcome with rfl | hOutcome
    · exact hContinues.active
    · exact (hAll outcome hOutcome).active
  · intro started later
    constructor
    · rintro ⟨hStarted, hLater⟩
      obtain rfl := hStarted.unique hStarts
      exact ⟨rfl, hLater.unique hRun⟩
    · rintro ⟨rfl, rfl⟩
      exact ⟨hStarts, hRun⟩

end Calls

open MarkIV in
theorem policy_run_of_emptied_brew : ∃ machine, Policy.declaration.build = .ok machine ∧
    ∃ (first : Outcome Unit MarkIV.Event MarkIV.Action (Recorder MarkIV.Action Unit))
      (rest : List (Outcome Unit MarkIV.Event MarkIV.Action (Recorder MarkIV.Action Unit))),
      first.execution.active = some [[0], [0]] ∧
      (rest.map fun outcome => outcome.execution.active) =
        [some [[1, 0], [0]], some [[1, 1], [0]], some [[2], [0]]] ∧
      (rest.map fun outcome => outcome.execution.sink.performed.drop 4) =
        [[.lightOff, .boilerOn, .valveClose],
          [.lightOff, .boilerOn, .valveClose, .boilerOff, .valveOpen],
          [.lightOff, .boilerOn, .valveClose, .boilerOff, .valveOpen, .boilerOff, .valveOpen,
            .lightOn]] ∧
      ∀ started later,
        Starts machine (⟨(), []⟩ : Recorder MarkIV.Action Unit) started ∧
            Run machine () started [.brewClicked false true, .potRemoved, .reservoirEmptied] later ↔
          started = moment first ∧ later = rest.map moment := by
  refine ⟨_, rfl, ?_⟩
  obtain ⟨first, rest, hFirst, hRest, _, hRun⟩ :=
    start_processAll_iff_run (show Policy.declaration.build = .ok _ from rfl) ()
      (⟨(), []⟩ : Recorder MarkIV.Action Unit) none
      [(.brewClicked false true, ⟨0, 0⟩), (.potRemoved, ⟨1, 0⟩), (.reservoirEmptied, ⟨2, 0⟩)]
  cases hFirst
  cases hRest
  exact ⟨_, _, rfl, rfl, rfl, hRun⟩

end Statechart.Flat
