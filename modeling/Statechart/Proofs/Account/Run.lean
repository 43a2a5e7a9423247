import Statechart.MarkIV.Hardware
import Statechart.Proofs.Account
import Statechart.Proofs.MarkIV.Policy
import Statechart.Proofs.Misuse

/-!
# What a run logs

The log of a call said of all regions at once: the accounts of the regions one after the other, each
with its refusals, its transition and its actions in the order in which they are performed, and at
the end a record if no region took the event. Performing an action is announced first, and what the
sink writes of it follows at once. Starting logs the actions of the initial states and how many they
were; questions log nothing.
-/

namespace Statechart

variable {C E A S : Type}

namespace Flat

/-! ## Records -/

def Refusal.record (kind : String) (refusal : Refusal) : Log.Record :=
  ⟨.trace, "guard rejected every candidate",
    [("region", refusal.region), ("state", refusal.state), ("event", kind)]⟩

def Move.record (kind : String) (move : Move) : Log.Record :=
  ⟨.debug, "transition",
    [("region", move.region), ("from", move.source), ("to", move.target), ("event", kind)]⟩

def ignored (kind : String) : Log.Record :=
  ⟨.trace, "event ignored by every region", [("event", kind)]⟩

def started (machine : String) (configuration : Configuration) (actions : Nat) : Log.Record :=
  ⟨.info, "interpreter started",
    [("machine", machine), ("configuration", configuration.display),
      ("actions", toString actions)]⟩

section Records

variable [Action A] [Sink A S]

def firing (action : A) : Log.Record :=
  ⟨.trace, "firing action", [("action", Action.name action)]⟩

/-- Each action is announced, then it is performed and the sink writes its own records of it. -/
def firings : List A → S → List Log.Record
  | [], _ => []
  | action :: rest, sink =>
    firing action :: ((Sink.perform action sink).2 ++ firings rest (Sink.perform action sink).1)

def Account.records (kind : String) (account : Account A) (sink : S) : List Log.Record :=
  account.refusals.map (Refusal.record kind) ++
    ((account.transition.map (Move.record kind)).toList ++ firings account.performed sink)

/-- The accounts of the regions, each told on the sink that the regions before it left. -/
def told (kind : String) : List (Account A) → S → List Log.Record
  | [], _ => []
  | account :: rest, sink =>
    account.records kind sink ++ told kind rest (performAll account.performed sink)

/-- What a start logs, with what is to be seen after it. -/
inductive LogsStart (machine : Machine C E A) (sink : S) :
    Moment C E A S → List Log.Record → Prop
  | intro {seats : List (List (Seat C E A))} :
      List.Forall₂ (fun region seats => Enters region region.label.initial seats)
        machine.regions seats →
      LogsStart machine sink
        ⟨seats, performAll (seats.flatMap entries) sink, shown machine seats⟩
        (firings (seats.flatMap entries) sink ++
          [started machine.id (shown machine seats) (seats.flatMap entries).length])

/-- What an event logs, with what is to be seen after it. -/
inductive Logs [Event E] (machine : Machine C E A) (context : C) (event : E)
    (before : Moment C E A S) : Moment C E A S → List Log.Record → Prop
  | intro {answers : List (List (Seat C E A) × Account A)} :
      List.Forall₂ (fun place answer =>
        Accounts context event place.1 place.2 answer.1 answer.2)
        (machine.regions.zip before.seats) answers →
      Logs machine context event before
        ⟨answers.map (·.1), performAll (answers.flatMap (·.2.performed)) before.sink,
          shown machine (answers.map (·.1))⟩
        (told (Event.kind event) (answers.map (·.2)) before.sink ++
          if answers.any (·.2.transition.isSome) then [] else [ignored (Event.kind event)])

/-! ## There is one log -/

theorem LogsStart.unique {machine : Machine C E A} {sink : S} {first second : Moment C E A S}
    {records records' : List Log.Record} (hFirst : LogsStart machine sink first records)
    (hSecond : LogsStart machine sink second records') : first = second ∧ records = records' := by
  cases hFirst with
  | intro hFirst =>
    cases hSecond with
    | intro hSecond =>
      have hUnique : Relator.RightUnique fun (region : Machine.Region C E A) seats =>
          Enters region region.label.initial seats := fun _ _ _ h h' => h.unique h'
      cases hUnique.forall₂ hFirst hSecond
      exact ⟨rfl, rfl⟩

theorem Logs.unique [Event E] {machine : Machine C E A} {context : C} {event : E}
    {before first second : Moment C E A S} {records records' : List Log.Record}
    (hFirst : Logs machine context event before first records)
    (hSecond : Logs machine context event before second records') :
    first = second ∧ records = records' := by
  cases hFirst with
  | intro hFirst =>
    cases hSecond with
    | intro hSecond =>
      have hUnique : Relator.RightUnique
          fun (place : Machine.Region C E A × List (Seat C E A)) (answer : _ × Account A) =>
            Accounts context event place.1 place.2 answer.1 answer.2 := by
        intro place answer answer' h h'
        obtain ⟨hAfter, hAccount⟩ := h.unique h'
        exact Prod.ext hAfter hAccount
      cases hUnique.forall₂ hFirst hSecond
      exact ⟨rfl, rfl⟩

/-! ## Effects performed in order -/

theorem perform_append (first second : List (Effect A)) (sink : S) :
    (Execution.perform (first ++ second) sink).2 =
      (Execution.perform first sink).2 ++
        (Execution.perform second (Execution.perform first sink).1).2 := by
  induction first generalizing sink with
  | nil => rfl
  | cons effect rest ih =>
    cases effect with
    | refused region state event => exact congrArg (.refused region state event :: ·) (ih sink)
    | moved region source target event =>
      exact congrArg (.transition region source target event :: ·) (ih sink)
    | fired action =>
      rw [List.cons_append, Execution.perform, Execution.perform]
      simp only [ih, List.append_assoc, List.cons_append]

theorem records_perform_refusals (kind : String) (refusals : List Refusal) (sink : S) :
    (Execution.perform (refusals.map (Refusal.effect (A := A) kind)) sink).2.map (·.record) =
      refusals.map (Refusal.record kind) := by
  induction refusals with
  | nil => rfl
  | cons refusal rest ih => exact congrArg (refusal.record kind :: ·) ih

theorem records_perform_transition (kind : String) (transition : Option Move) (sink : S) :
    (Execution.perform (transition.map (Move.effect (A := A) kind)).toList sink).2.map
      (·.record) = (transition.map (Move.record kind)).toList := by
  cases transition <;> rfl

theorem records_perform_fired (actions : List A) (sink : S) :
    (Execution.perform (actions.map .fired) sink).2.map (·.record) = firings actions sink := by
  induction actions generalizing sink with
  | nil => rfl
  | cons action rest ih =>
    rw [firings, ← ih, List.map_cons, Execution.perform]
    simp only [List.cons_append, List.map_cons, List.map_append, List.map_map]
    exact congrArg (firing action :: · ++ _) (List.map_id _)

theorem records_perform_effects (kind : String) (account : Account A) (sink : S) :
    (Execution.perform (account.effects kind) sink).2.map (·.record) =
      account.records kind sink := by
  rw [Account.effects, perform_append, perform_append, sink_perform, sink_perform,
    actions_map_refusal, actions_transition, List.map_append, List.map_append,
    records_perform_refusals, records_perform_transition, records_perform_fired]
  rfl

theorem records_perform_accounts (kind : String) (accounts : List (Account A)) (sink : S) :
    (Execution.perform (accounts.flatMap (·.effects kind)) sink).2.map (·.record) =
      told kind accounts sink := by
  induction accounts generalizing sink with
  | nil => rfl
  | cons account rest ih =>
    rw [List.flatMap_cons, perform_append, List.map_append, records_perform_effects, ih,
      sink_perform, Account.actions_effects]
    rfl

end Records

theorem actions_accounts (kind : String) (accounts : List (Account A)) :
    Effect.actions (accounts.flatMap (·.effects kind)) = accounts.flatMap (·.performed) := by
  induction accounts with
  | nil => rfl
  | cons account rest ih =>
    rw [List.flatMap_cons, Effect.actions_append, Account.actions_effects, ih, List.flatMap_cons]

/-! ## All regions -/

section Process

variable [Event E] (context : C) (event : E)

theorem exists_accounts {regions : List (Machine.Region C E A)} {active : List (List Nat)}
    (hSound : ∀ region ∈ regions, Machine.Region.Sound region)
    (hNamed : ∀ region ∈ regions, Machine.Region.WellNamed region)
    (hActive : List.Forall₂ Region.FullPath regions active) :
    ∃ answers : List (List (Seat C E A) × Account A),
      List.Forall₂ (fun place answer => Accounts context event place.1 place.2 answer.1 answer.2)
        (regions.zip (List.zipWith view regions active)) answers ∧
      List.zipWith view regions (List.zipWith (Machine.Region.after context event) regions active) =
        answers.map (·.1) ∧
      (List.zipWith (Machine.Region.react context event) regions active).flatMap (·.effects) =
        (answers.map (·.2)).flatMap (·.effects (Event.kind event)) ∧
      (List.zipWith (Machine.Region.react context event) regions active).any (·.moved) =
        answers.any (·.2.transition.isSome) := by
  induction hActive with
  | nil => exact ⟨[], .nil, rfl, rfl, rfl⟩
  | @cons region path regions active hPath _ ih =>
    obtain ⟨account, hAccount, hEffects, hMoved⟩ := exists_accounts_react context event
      (hSound region List.mem_cons_self) (hNamed region List.mem_cons_self) hPath
    obtain ⟨answers, hAnswers, hAfter, hRest, hAny⟩ :=
      ih (fun other h => hSound other (List.mem_cons_of_mem _ h))
        fun other h => hNamed other (List.mem_cons_of_mem _ h)
    refine ⟨(_, account) :: answers, .cons hAccount hAnswers, ?_, ?_, ?_⟩
    · rw [List.map_cons, ← hAfter]
      rfl
    · rw [List.zipWith_cons_cons, List.flatMap_cons, List.map_cons, List.flatMap_cons, hEffects,
        hRest]
    · rw [List.zipWith_cons_cons, List.any_cons, List.any_cons, hMoved, hAny]

end Process

section Calls

variable [Action A] [Sink A S] {execution : Execution C E A S}

theorem exists_logsStart (hFull : execution.Full) (hFresh : execution.active = none) :
    ∃ outcome, execution.start = .ok outcome ∧
      LogsStart execution.machine execution.sink (moment outcome)
        (outcome.log.map (·.record)) := by
  refine ⟨_, by rw [Execution.start, hFresh], ?_⟩
  rw [moment, sink_perform, Effect.actions_map_fired, List.map_append, records_perform_fired,
    startActions_eq_entries, describe_eq_shown]
  exact .intro (forall₂_enters_startPaths hFull.sound)

theorem exists_logs [Event E] (hFull : execution.Full)
    (hNamed : ∀ region ∈ execution.machine.regions, Machine.Region.WellNamed region)
    {active : List (List Nat)} (hActive : execution.active = some active) (event : E)
    (time : Timestamp) (configuration : Configuration) :
    ∃ outcome, execution.process event time = .ok outcome ∧
      Logs execution.machine execution.context event
        ⟨seats execution, execution.sink, configuration⟩ (moment outcome)
        (outcome.log.map (·.record)) := by
  obtain ⟨outcome, hOutcome, hProcessed⟩ := Execution.exists_processed hActive event time
  obtain ⟨answers, hAnswers, hAfter, hEffects, hAny⟩ :=
    exists_accounts execution.context event hFull.sound hNamed (hFull.active active hActive)
  have hSeats : seats execution = List.zipWith view execution.machine.regions active := by
    rw [seats, hActive, Option.getD_some]
  have hSeats' : seats outcome.execution = answers.map (·.1) := by
    rw [seats, hProcessed.machine, hProcessed.active, Option.getD_some, hAfter]
  have hSink : outcome.execution.sink =
      performAll (answers.flatMap (·.2.performed)) execution.sink := by
    rw [hProcessed.sink, ← Execution.actions_reactions, Execution.reactions, hEffects,
      actions_accounts, List.flatMap_map]
  have hShown : outcome.configuration = shown execution.machine (answers.map (·.1)) := by
    rw [hProcessed.configuration, describe_eq_shown, hAfter]
  have hLog : outcome.log.map (·.record) =
      told (Event.kind event) (answers.map (·.2)) execution.sink ++
        if answers.any (·.2.transition.isSome) then [] else [ignored (Event.kind event)] := by
    rw [hProcessed.log, Execution.reactions, hEffects, hAny, List.map_append,
      records_perform_accounts]
    split <;> rfl
  refine ⟨outcome, hOutcome, ?_⟩
  rw [moment, hSeats, hSeats', hSink, hShown, hLog]
  exact .intro hAnswers

end Calls

/-! ## Sinks that log -/

theorem firings_hardware (actions : List MarkIV.Action) (hardware : MarkIV.Hardware) :
    firings actions hardware =
      (actions.zip (actions.scanl MarkIV.Hardware.write hardware).tail).flatMap
        fun (action, written) => [firing action,
          ⟨.trace, "hardware write", [("register", written.register.display)]⟩] := by
  induction actions generalizing hardware with
  | nil => rfl
  | cons action rest ih =>
    have hWritten : rest.scanl MarkIV.Hardware.write (hardware.write action) =
        hardware.write action ::
          (rest.scanl MarkIV.Hardware.write (hardware.write action)).tail := by
      cases rest <;> simp
    rw [firings, List.scanl_cons, List.tail_cons, hWritten, List.zip_cons_cons, List.flatMap_cons,
      ← ih]
    rfl

end Flat

namespace Execution

variable [Event E] [Action A] [Sink A S]

/-- Whatever has been called on a machine that was built: questions log nothing, a start logs the
actions of the initial states and their number, and an event logs the accounts of all regions. What
is logged and where the machine then is are determined by the active states. On the simulated
hardware each announced action is followed at once by the one record of its write. -/
theorem logged_iff_accounts {declaration : Declaration C E A} {machine : Machine C E A}
    (hBuild : declaration.build = .ok machine) (context : C) (sink : S) (calls : List (Call E))
    {execution : Execution C E A S}
    (hCalls : (Execution.new machine context sink).calls calls = execution) :
    (∀ event : E, execution.logged (.accepts event) = []) ∧
      execution.logged (.configuration : Call E) = [] ∧
      (execution.isStarted = false → ∃ outcome, execution.start = .ok outcome ∧
        ∀ after records, Flat.LogsStart machine execution.sink after records ↔
          after = Flat.moment outcome ∧
            records = (execution.logged (.start : Call E)).map (·.record)) ∧
      (execution.isStarted = true → ∀ (event : E) (time : Timestamp) (shown : Configuration),
        ∃ outcome, execution.process event time = .ok outcome ∧
          ∀ after records,
            Flat.Logs machine context event ⟨Flat.seats execution, execution.sink, shown⟩
                after records ↔
              after = Flat.moment outcome ∧
                records = (execution.logged (.process event time)).map (·.record)) ∧
      ∀ (actions : List MarkIV.Action) (hardware : MarkIV.Hardware),
        Flat.firings actions hardware =
          (actions.zip (actions.scanl MarkIV.Hardware.write hardware).tail).flatMap
            fun (action, written) => [Flat.firing action,
              ⟨.trace, "hardware write", [("register", written.register.display)]⟩] := by
  have hFull : execution.Full :=
    hCalls ▸ (Full.new (Declaration.sound_of_build hBuild) context sink).calls calls
  obtain rfl : execution.machine = machine := hCalls ▸ machine_calls _ calls
  obtain rfl : execution.context = context := hCalls ▸ context_calls _ calls
  have hNamed := Declaration.wellNamed_of_build hBuild
  refine ⟨fun _ => rfl, rfl, ?start, ?process, Flat.firings_hardware⟩
  case start =>
    intro hFresh
    have hInactive : execution.active = none :=
      Option.isNone_iff_eq_none.mp (Option.isSome_eq_false_iff.mp hFresh)
    obtain ⟨outcome, hOutcome, hLogs⟩ := Flat.exists_logsStart hFull hInactive
    refine ⟨outcome, hOutcome, fun after records => ?_⟩
    rw [logged, hOutcome]
    constructor
    · intro hOther
      exact hOther.unique hLogs
    · rintro ⟨rfl, rfl⟩
      exact hLogs
  case process =>
    intro hStarted event time shown
    obtain ⟨active, hActive⟩ := Option.isSome_iff_exists.mp hStarted
    obtain ⟨outcome, hOutcome, hLogs⟩ :=
      Flat.exists_logs hFull hNamed hActive event time shown
    refine ⟨outcome, hOutcome, fun after records => ?_⟩
    rw [logged, hOutcome]
    constructor
    · intro hOther
      exact hOther.unique hLogs
    · rintro ⟨rfl, rfl⟩
      exact hLogs

open MarkIV in
theorem policy_logs_pot_and_refused_click : ∃ machine, Policy.declaration.build = .ok machine ∧
    ∃ (execution : Execution Unit MarkIV.Event MarkIV.Action Hardware)
      (begun partly refused : Flat.Moment Unit MarkIV.Event MarkIV.Action Hardware)
      (records : List Log.Record),
      (Execution.new machine () {}).calls [.start] = execution ∧
      Flat.LogsStart machine {} begun records ∧ records.length = 9 ∧
      records.getLast? = some ⟨.info, "interpreter started", [("machine", "mark4-controller"),
        ("configuration", "\x7bbrewIdle, warmIdle\x7d"), ("actions", "4")]⟩ ∧
      Flat.Logs machine () .potPartial ⟨Flat.seats execution, execution.sink, ⟨[]⟩⟩ partly
        [⟨.debug, "transition", [("region", "warmerControl"), ("from", "warmIdle"),
            ("to", "warmRun"), ("event", "POT_PARTIAL")]⟩,
          ⟨.trace, "firing action", [("action", "warmerOn")]⟩,
          ⟨.trace, "hardware write", [("register",
            "valve=open boiler=off warmer=on light=off reservoir=empty pot=removed (0x04)")]⟩] ∧
      Flat.Logs machine () (.brewClicked true true)
        ⟨Flat.seats execution, execution.sink, ⟨[]⟩⟩ refused
        [⟨.trace, "guard rejected every candidate",
            [("region", "brewControl"), ("state", "brewIdle"), ("event", "BREW_CLICKED")]⟩,
          ⟨.trace, "event ignored by every region", [("event", "BREW_CLICKED")]⟩] := by
  obtain ⟨machine, hBuild⟩ : ∃ machine, Policy.declaration.build = .ok machine := ⟨_, rfl⟩
  obtain ⟨_, _, hStart, _, _⟩ :=
    logged_iff_accounts (E := MarkIV.Event) hBuild () ({} : Hardware) [] rfl
  obtain ⟨_, _, _, hProcess, _⟩ :=
    logged_iff_accounts (E := MarkIV.Event) hBuild () ({} : Hardware) [.start] rfl
  obtain ⟨first, _, hStart⟩ := hStart rfl
  have hStarted : ((Execution.new machine () ({} : Hardware)).calls
    [(.start : Call MarkIV.Event)]).isStarted = true := rfl
  obtain ⟨partly, _, hPartly⟩ := hProcess hStarted .potPartial ⟨0, 0⟩ ⟨[]⟩
  obtain ⟨refused, _, hRefused⟩ := hProcess hStarted (.brewClicked true true) ⟨0, 0⟩ ⟨[]⟩
  refine ⟨machine, hBuild, _, _, _, _, _, rfl, (hStart _ _).mpr ⟨rfl, rfl⟩, ?_, ?_,
    (hPartly _ _).mpr ⟨rfl, ?_⟩, (hRefused _ _).mpr ⟨rfl, ?_⟩⟩
  all_goals
    cases hBuild
    rfl

end Execution

end Statechart
