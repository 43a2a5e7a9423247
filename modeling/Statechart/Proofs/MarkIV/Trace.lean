import Statechart.Proofs.MarkIV.Safety

/-!
# What the events tell

Where the policy stands can be read off the events it was given. The warmer follows the last event
of the pot. The brew cycle runs from a click that passes the check until the reservoir is empty; of
a running cycle the last event of the pot since that click tells whether it waits. A complete cycle
stays complete until the pot is removed.
-/

namespace Statechart.MarkIV

/-- The event says where the pot is from now on. -/
def Event.movesPot : Event → Bool
  | potPartial | potRemoved | potEmptied => true
  | brewClicked .. | reservoirEmptied => false

def Event.lastOfPot (events : List Event) : Option Event :=
  (events.filter movesPot).getLast?

theorem Event.lastOfPot_concat (events : List Event) (event : Event) :
    lastOfPot (events ++ [event]) = if event.movesPot then some event else lastOfPot events := by
  rw [lastOfPot, List.filter_append, List.filter_singleton]
  cases event.movesPot with
  | true => exact List.getLast?_concat
  | false => exact congrArg List.getLast? (List.append_nil _)

/-! ## Modes after events -/

namespace Table

variable {Mode : Type}

/-- The mode that some events lead to, one after the other. -/
def follow (table : Table Mode) (mode : Mode) (events : List Event) : Mode :=
  events.foldl (fun mode event => table.next event mode) mode

theorem follow_append (table : Table Mode) (mode : Mode) (events more : List Event) :
    table.follow mode (events ++ more) = table.follow (table.follow mode events) more :=
  List.foldl_append

theorem follow_concat (table : Table Mode) (mode : Mode) (events : List Event) (event : Event) :
    table.follow mode (events ++ [event]) = table.next event (table.follow mode events) :=
  table.follow_append mode events [event]

/-- Of two modes that every event of the pot decides anew and no other event changes, the last event
of the pot tells which one is reached. -/
theorem follow_eq_of_lastOfPot (table : Table Mode) (mode : Bool → Mode) (target : Event)
    {events : List Event}
    (hNext : ∀ event ∈ events, ∀ on, table.next event (mode on) =
      mode (if event.movesPot then event = target else on)) :
    table.follow (mode false) events = mode (Event.lastOfPot events = some target) := by
  -- From the end of the run: its last event decides, or the last one of the pot before it does.
  induction events using List.reverseRecOn with
  | nil => rfl
  | append_singleton events event ih =>
    have hEvents := ih fun other hOther => hNext other (List.mem_append_left _ hOther)
    have hEvent := hNext event (List.mem_append_right _ List.mem_cons_self)
    rw [follow_concat, hEvents, hEvent, Event.lastOfPot_concat]
    cases event.movesPot <;> simp

end Table

theorem Warm.follow_eq (events : List Event) : Warm.table.follow .idle events =
    if Event.lastOfPot events = some .potPartial then .running else .idle := by
  refine (Table.follow_eq_of_lastOfPot Warm.table (fun on => bif on then running else idle)
    .potPartial ?_).trans (Bool.cond_decide ..)
  rintro event _ (_ | _) <;> cases event <;> rfl

namespace Brew

/-- A brew cycle that is running waits while the pot is away, until the reservoir is empty. -/
theorem follow_brewing {events : List Event} (hEvents : .reservoirEmptied ∉ events) :
    Brew.table.follow .brewing events =
      if Event.lastOfPot events = some .potRemoved then .waiting else .brewing := by
  refine (Table.follow_eq_of_lastOfPot Brew.table (fun on => bif on then waiting else brewing)
    .potRemoved ?_).trans (Bool.cond_decide ..)
  intro event hEvent on
  have hNonempty : event ≠ .reservoirEmptied := by
    rintro rfl
    exact hEvents hEvent
  rcases event with ⟨_ | _, _ | _⟩ | _ | _ | _ | _ <;> cases on <;>
    first | rfl | exact absurd rfl hNonempty

theorem inIdle_iff (brew : Brew) : ["brewIdle"] <+: brew.states ↔ brew = idle := by
  cases brew <;> decide

theorem inBrewing_iff (brew : Brew) :
    ["brewRun", "brewing"] <+: brew.states ↔ brew = brewing := by
  cases brew <;> decide

theorem inComplete_iff (brew : Brew) : ["brewComplete"] <+: brew.states ↔ brew = complete := by
  cases brew <;> decide

def InRun (brew : Brew) : Prop :=
  brew = brewing ∨ brew = waiting

theorem inRun_next (event : Event) (brew : Brew) : (Brew.table.next event brew).InRun ↔
    (event = .brewClicked false true ∧ brew = idle) ∨
      (brew.InRun ∧ event ≠ .reservoirEmptied) := by
  rcases event with ⟨_ | _, _ | _⟩ | _ | _ | _ | _ <;> cases brew <;>
    simp [InRun, Table.next, table, moves]

theorem complete_next (event : Event) (brew : Brew) : Brew.table.next event brew = complete ↔
    (event = .reservoirEmptied ∧ brew.InRun) ∨ (brew = complete ∧ event ≠ .potRemoved) := by
  rcases event with ⟨_ | _, _ | _⟩ | _ | _ | _ | _ <;> cases brew <;>
    simp [InRun, Table.next, table, moves]

end Brew

/-! ## Lasting since an event -/

section Lasting

variable (begins : List (Event × Timestamp) → Event → Prop) (ends : Event)

/-- An event with which something begins came in a run, and of the events since then none ends
it. -/
def LastsSince (timed : List (Event × Timestamp)) (since : List Event) : Prop :=
  ∃ before event time rest, timed = before ++ (event, time) :: rest ∧ begins before event ∧
    since = rest.map (·.1) ∧ ends ∉ since

variable {begins ends}

theorem not_lastsSince_nil (since : List Event) : ¬ LastsSince begins ends [] since := by
  rintro ⟨before, event, time, rest, hSplit, _⟩
  exact List.append_ne_nil_of_right_ne_nil before (List.cons_ne_nil _ _) hSplit.symm

theorem exists_lastsSince_concat {timed : List (Event × Timestamp)} {event : Event}
    {time : Timestamp} :
    (∃ since, LastsSince begins ends (timed ++ [(event, time)]) since) ↔
      begins timed event ∨ ((∃ since, LastsSince begins ends timed since) ∧ event ≠ ends) := by
  constructor
  · rintro ⟨since, before, first, start, rest, hSplit, hBegins, rfl, hLasts⟩
    -- The last event is the one that begins or one of those since.
    cases rest using List.reverseRecOn with
    | nil =>
      obtain ⟨rfl, hLast⟩ := List.append_inj' hSplit rfl
      cases hLast
      exact Or.inl hBegins
    | append_singleton rest last =>
      rw [← List.cons_append, ← List.append_assoc] at hSplit
      obtain ⟨rfl, hLast⟩ := List.append_inj' hSplit rfl
      cases hLast
      rw [List.map_append, List.mem_append, not_or] at hLasts
      obtain ⟨hRest, hLast⟩ := hLasts
      refine Or.inr ⟨⟨_, before, first, start, rest, rfl, hBegins, rfl, hRest⟩, ?_⟩
      rintro rfl
      exact hLast List.mem_cons_self
  · rintro (hBegins | ⟨⟨_, before, first, start, rest, rfl, hBegins, rfl, hLasts⟩, hStays⟩)
    · exact ⟨[], timed, event, time, [], rfl, hBegins, rfl, List.not_mem_nil⟩
    · refine ⟨_, before, first, start, rest ++ [(event, time)], ?_, hBegins, rfl, ?_⟩
      · rw [List.append_assoc, List.cons_append]
      · rw [List.map_append, List.mem_append, not_or]
        exact ⟨hLasts, fun hLast => hStays (List.eq_of_mem_singleton hLast).symm⟩

/-- What holds of the mode after an event exactly if the event begins it, or if it held before and the
event is not the one that ends it, holds after a run exactly if it has lasted since some event. -/
theorem follow_iff_lastsSince {Mode : Type} (table : Table Mode) {initial : Mode}
    (holds : Mode → Prop) (hInitial : ¬ holds initial)
    (hNext : ∀ (timed : List (Event × Timestamp)) event,
      holds (table.next event (table.follow initial (timed.map (·.1)))) ↔
        begins timed event ∨ (holds (table.follow initial (timed.map (·.1))) ∧ event ≠ ends))
    (timed : List (Event × Timestamp)) :
    holds (table.follow initial (timed.map (·.1))) ↔
      ∃ since, LastsSince begins ends timed since := by
  induction timed using List.reverseRecOn with
  | nil => exact iff_of_false hInitial fun ⟨since, hSince⟩ => not_lastsSince_nil since hSince
  | append_singleton timed last ih =>
    obtain ⟨event, time⟩ := last
    rw [exists_lastsSince_concat, ← ih, ← hNext, List.map_append]
    exact iff_of_eq (congrArg holds (table.follow_concat ..))

end Lasting

/-! ## The policy -/

namespace Policy

variable {S : Type} [Sink Action S]

/-- The execution after some events, each at its time. -/
def processed (execution : Execution Context Event Action S) :
    List (Event × Timestamp) → Except Misuse (Execution Context Event Action S)
  | [] => .ok execution
  | (event, time) :: rest =>
    match execution.process event time with
    | .error misuse => .error misuse
    | .ok outcome => processed outcome.execution rest

/-- What the policy shows once it was started on some hardware and given some events. -/
def shown (hardware : S) (timed : List (Event × Timestamp)) : Except Failure Configuration :=
  match Policy.execution hardware with
  | .error invalid => .error (.definition invalid)
  | .ok execution =>
    Except.mapError .misuse do
      let started ← execution.start
      let last ← processed started.execution timed
      last.configuration

theorem At.exists_processed {execution : Execution Context Event Action S} {brew : Brew}
    {warm : Warm} (hAt : At execution brew warm) (timed : List (Event × Timestamp)) :
    ∃ last, processed execution timed = .ok last ∧
      At last (Brew.table.follow brew (timed.map (·.1)))
        (Warm.table.follow warm (timed.map (·.1))) := by
  induction timed generalizing execution brew warm with
  | nil => exact ⟨execution, rfl, hAt⟩
  | cons first rest ih =>
    obtain ⟨event, time⟩ := first
    obtain ⟨outcome, hOutcome, hAfter, _⟩ := hAt.exists_process event time
    rw [processed, hOutcome]
    exact ih hAfter

theorem shown_eq (hardware : S) (timed : List (Event × Timestamp)) :
    shown hardware timed = .ok (configurationOf (Brew.table.follow .idle (timed.map (·.1)))
      (Warm.table.follow .idle (timed.map (·.1)))) := by
  obtain ⟨execution, started, hExecution, _, hStart, hIdle, _⟩ := exists_start hardware
  obtain ⟨last, hLast, hAt⟩ := hIdle.exists_processed timed
  simp only [shown, hExecution, hStart, hLast, hAt.configuration, Except.mapError, bind,
    Except.bind]

/-- The brew region was in the state that the ids lead to when the next event came. -/
def StoodIn (hardware : S) (before : List (Event × Timestamp)) (ids : List String) : Prop :=
  ∃ configuration, shown hardware before = .ok configuration ∧ BrewIn configuration ids

/-- A click that passes the check found the brew region idle, and the reservoir was not emptied
since. -/
def RunsSince (hardware : S) : List (Event × Timestamp) → List Event → Prop :=
  LastsSince (fun before event => event = .brewClicked false true ∧
    StoodIn hardware before ["brewIdle"]) .reservoirEmptied

/-- The reservoir was emptied in a brew cycle that was running, and the pot was not removed
since. -/
def CompleteSince (hardware : S) : List (Event × Timestamp) → List Event → Prop :=
  LastsSince (fun before event => event = .reservoirEmptied ∧
    StoodIn hardware before ["brewRun"]) .potRemoved

theorem stoodIn_iff {hardware : S} {before : List (Event × Timestamp)} {ids : List String} :
    StoodIn hardware before ids ↔
      ids <+: (Brew.table.follow .idle (before.map (·.1))).states := by
  rw [← brewIn_configurationOf, StoodIn, shown_eq]
  constructor
  · rintro ⟨_, ⟨⟩, hIn⟩
    exact hIn
  · intro hIn
    exact ⟨_, rfl, hIn⟩

theorem inRun_iff_runsSince (hardware : S) (timed : List (Event × Timestamp)) :
    (Brew.table.follow .idle (timed.map (·.1))).InRun ↔
      ∃ since, RunsSince hardware timed since := by
  refine follow_iff_lastsSince Brew.table Brew.InRun (by simp [Brew.InRun])
    (fun before event => ?_) timed
  rw [Brew.inRun_next, stoodIn_iff, Brew.inIdle_iff]

theorem complete_iff_completeSince (hardware : S) (timed : List (Event × Timestamp)) :
    Brew.table.follow .idle (timed.map (·.1)) = .complete ↔
      ∃ since, CompleteSince hardware timed since := by
  have hIdle : Brew.idle ≠ .complete := nofun
  refine follow_iff_lastsSince Brew.table (· = .complete) hIdle (fun before event => ?_) timed
  rw [Brew.complete_next, stoodIn_iff, Brew.inRun_iff, Brew.InRun]

theorem follow_of_runsSince {hardware : S} {timed : List (Event × Timestamp)} {since : List Event}
    (hSince : RunsSince hardware timed since) : Brew.table.follow .idle (timed.map (·.1)) =
      if Event.lastOfPot since = some .potRemoved then .waiting else .brewing := by
  obtain ⟨before, _, time, rest, rfl, ⟨rfl, hIdle⟩, rfl, hLasts⟩ := hSince
  rw [stoodIn_iff, Brew.inIdle_iff] at hIdle
  rw [List.map_append, Table.follow_append, hIdle]
  exact Brew.follow_brewing hLasts

/-- The policy answers whatever events it is given after its start, on any hardware, and the events
tell what it then shows. -/
theorem modes_of_events (hardware : S) (timed : List (Event × Timestamp)) :
    ∃ configuration, shown hardware timed = .ok configuration ∧
      (configuration.active "warmerControl" = some ["warmRun"] ↔
        Event.lastOfPot (timed.map (·.1)) = some .potPartial) ∧
      (BrewIn configuration ["brewRun"] ↔ ∃ since, RunsSince hardware timed since) ∧
      (∀ since, RunsSince hardware timed since →
        (BrewIn configuration ["brewRun", "waiting"] ↔
          Event.lastOfPot since = some .potRemoved) ∧
        (BrewIn configuration ["brewRun", "brewing"] ↔
          Event.lastOfPot since ≠ some .potRemoved)) ∧
      (BrewIn configuration ["brewComplete"] ↔ ∃ since, CompleteSince hardware timed since) ∧
      (BrewIn configuration ["brewIdle"] ↔
        (¬ ∃ since, RunsSince hardware timed since) ∧
          ¬ ∃ since, CompleteSince hardware timed since) := by
  refine ⟨_, shown_eq hardware timed, ?warm, ?run, ?within, ?complete, ?idle⟩
  case warm =>
    rw [Warm.follow_eq]
    show some (Warm.states _) = _ ↔ _
    split <;> simp [Warm.states, *]
  case run =>
    rw [brewIn_configurationOf, Brew.inRun_iff]
    exact inRun_iff_runsSince hardware timed
  case within =>
    intro since hSince
    rw [brewIn_configurationOf, brewIn_configurationOf, Brew.inWaiting_iff, Brew.inBrewing_iff,
      follow_of_runsSince hSince]
    split <;> simp [*]
  case complete =>
    rw [brewIn_configurationOf, Brew.inComplete_iff]
    exact complete_iff_completeSince hardware timed
  case idle =>
    rw [brewIn_configurationOf, Brew.inIdle_iff, ← inRun_iff_runsSince hardware timed,
      ← complete_iff_completeSince hardware timed]
    cases Brew.table.follow .idle (timed.map (·.1)) <;> simp [Brew.InRun]

end Policy

end Statechart.MarkIV
