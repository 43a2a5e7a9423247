import Statechart.MarkIV.Rig
import Statechart.Proofs.MarkIV.Policy
import Statechart.Proofs.MarkIV.Register

/-!
# What the rig shows

Of a rig only four things matter: what the two sensors say, and the mode of each region. They
decide what every call does, and the modes decide every actuator, whatever byte the rig was
assembled on. So a rig follows a small machine of its own, call by call, and no call fails.
-/

namespace Statechart.MarkIV

structure Situation where
  reservoir : Bool
  pot : Option Pot
  brew : Brew
  warm : Warm
  deriving DecidableEq, Repr

namespace Situation

def initial (register : Register) : Situation :=
  ⟨register.has .reservoir, register.pot, .idle, .idle⟩

def sense (situation : Situation) : Call → Situation
  | .loadReservoir => { situation with reservoir := true }
  | .emptyReservoir => { situation with reservoir := false }
  | .potPartial => { situation with pot := some .partlyFull }
  | .removePot => { situation with pot := some .removed }
  | .emptyPot => { situation with pot := some .empty }
  | .clickBrew | .send _ => situation

def event? (situation : Situation) : Call → Option Event
  | .loadReservoir => none
  | .clickBrew => some (.brewClicked (!situation.reservoir) (situation.pot == some .empty))
  | .emptyReservoir => some .reservoirEmptied
  | .potPartial => some .potPartial
  | .removePot => some .potRemoved
  | .emptyPot => some .potEmptied
  | .send event => some event

def process (situation : Situation) (event : Event) : Situation :=
  { situation with
    brew := Brew.table.next event situation.brew
    warm := Warm.table.next event situation.warm }

def call (situation : Situation) (call : Call) : Situation :=
  let sensed := situation.sense call
  match sensed.event? call with
  | none => sensed
  | some event => sensed.process event

def calls (situation : Situation) (calls : List Call) : Situation :=
  calls.foldl call situation

end Situation

/-- What an actuator shows while the two regions are in their modes. -/
def driven (brew : Brew) (warm : Warm) : Field → Bool
  | .valve | .boiler => brew = .brewing
  | .light => brew = .complete
  | .warmer => warm = .running
  | .reservoir | .pot => false

def Drives (brew : Brew) (warm : Warm) (register : Register) : Prop :=
  ∀ field : Field, field.isActuator = true → register.has field = driven brew warm field

namespace Drives

/-- The actions of the start write every actuator. -/
theorem starts (hardware : Hardware) : Drives .idle .idle
    (Flat.performAll (Brew.table.starts ++ Warm.table.starts) hardware).register := by
  intro field hField
  rw [Hardware.has_performAll]
  cases field with
  | valve | boiler | light | warmer => rfl
  | reservoir | pot => cases hField

variable {brew : Brew} {warm : Warm} {hardware : Hardware}

/-- An actuator that the actions of an event do not write wants no other value after it. -/
theorem process (hDrives : Drives brew warm hardware.register) (event : Event) :
    Drives (Brew.table.next event brew) (Warm.table.next event warm)
      (Flat.performAll (Brew.table.performs event brew ++ Warm.table.performs event warm)
        hardware).register := by
  intro field hField
  rw [Hardware.has_performAll, hDrives field hField]
  cases field with
  | valve | boiler | light | warmer =>
    rcases event with ⟨_ | _, _ | _⟩ | _ | _ | _ | _ <;> cases brew <;> cases warm <;> rfl
  | reservoir | pot => cases hField

theorem sense (hDrives : Drives brew warm hardware.register) (call : Call) :
    Drives brew warm (call.sense hardware).register := by
  intro field hField
  have hReservoir : Field.reservoir ≠ field := by
    rintro rfl
    cases hField
  have hPot : Field.pot ≠ field := by
    rintro rfl
    cases hField
  rw [← hDrives field hField]
  cases call with
  | loadReservoir | emptyReservoir => exact (Register.has_setFlag ..).trans (if_neg hReservoir)
  | potPartial | removePot | emptyPot => exact Register.has_setPot hPot ..
  | clickBrew | send => rfl

end Drives

namespace Rig

structure Shows (rig : Rig) (situation : Situation) : Prop where
  modes : Policy.At rig.execution situation.brew situation.warm
  reservoir : rig.execution.sink.reservoirLoaded = situation.reservoir
  pot : rig.execution.sink.pot = situation.pot
  drives : Drives situation.brew situation.warm rig.register

theorem exists_assemble (initial : Register) :
    ∃ rig log, Rig.assemble initial = .ok (rig, log) ∧ rig.Shows (.initial initial) := by
  obtain ⟨execution, outcome, hExecution, hFresh, hStart, hAt, hSink⟩ :=
    Policy.exists_start (⟨initial⟩ : Hardware)
  refine ⟨⟨outcome.execution⟩, outcome.log, ?_, hAt, ?_, ?_, ?_⟩
  · rw [assemble, hExecution]
    show ofExecution execution = _
    rw [ofExecution, Execution.isStarted, hFresh, hStart]
    rfl
  · rw [hSink]
    exact Hardware.reservoirLoaded_performAll _ _
  · rw [hSink]
    exact Hardware.pot_performAll _ _
  · rw [register, hSink]
    exact Drives.starts _

namespace Shows

variable {rig : Rig} {situation : Situation}

theorem configuration (hShows : rig.Shows situation) :
    rig.configuration = .ok (configurationOf situation.brew situation.warm) := by
  rw [Rig.configuration, hShows.modes.configuration]
  rfl

theorem sense (hShows : rig.Shows situation) (call : Call) :
    Shows ⟨{ rig.execution with sink := call.sense rig.execution.sink }⟩
      (situation.sense call) := by
  have hDrives := hShows.drives.sense call
  have hAt : Policy.At { rig.execution with sink := call.sense rig.execution.sink }
      situation.brew situation.warm := ⟨hShows.modes.machine, hShows.modes.active⟩
  cases call with
  | loadReservoir | emptyReservoir =>
    exact ⟨hAt, Register.has_setFlag .., (Register.pot_setFlag (by decide) ..).trans hShows.pot,
      hDrives⟩
  | potPartial | removePot | emptyPot =>
    exact ⟨hAt, (Register.has_setPot (by decide) ..).trans hShows.reservoir,
      Register.pot_setPot .., hDrives⟩
  | clickBrew | send => exact ⟨hAt, hShows.reservoir, hShows.pot, hDrives⟩

theorem event?_eq (hShows : rig.Shows situation) (call : Call) :
    call.event? rig.execution.sink = situation.event? call := by
  cases call with
  | clickBrew =>
    rw [Call.event?, Hardware.brewClicked, hShows.reservoir, hShows.pot]
    rfl
  | _ => rfl

theorem exists_send (hShows : rig.Shows situation) (event : Event) (time : Timestamp) :
    ∃ after log, rig.send event time = .ok (after, log) ∧
      after.Shows (situation.process event) := by
  obtain ⟨outcome, hOutcome, hAt, hSink⟩ := hShows.modes.exists_process event time
  refine ⟨⟨outcome.execution⟩, _, by rw [Rig.send, hOutcome], hAt, ?_, ?_, ?_⟩
  · rw [hSink, Hardware.reservoirLoaded_performAll]
    exact hShows.reservoir
  · rw [hSink, Hardware.pot_performAll]
    exact hShows.pot
  · rw [register, hSink]
    exact hShows.drives.process event

theorem exists_call (hShows : rig.Shows situation) (call : Call) (time : Timestamp) :
    ∃ after log, rig.call call time = .ok (after, log) ∧ after.Shows (situation.call call) := by
  have hSensed := hShows.sense call
  rw [Rig.call, Situation.call, hSensed.event?_eq]
  cases (situation.sense call).event? call with
  | none => exact ⟨_, _, rfl, hSensed⟩
  | some event => exact hSensed.exists_send event time

end Shows

/-! ## Runs of calls -/

/-- The rig after some calls, each at its time. -/
def calls (rig : Rig) : List (Call × Timestamp) → Except Failure Rig
  | [] => .ok rig
  | (call, time) :: rest => do
    let (after, _) ← rig.call call time
    after.calls rest

theorem Shows.exists_calls {rig : Rig} {situation : Situation} (hShows : rig.Shows situation)
    (calls : List (Call × Timestamp)) :
    ∃ after, rig.calls calls = .ok after ∧
      after.Shows (situation.calls (calls.map (·.1))) := by
  induction calls generalizing rig situation with
  | nil => exact ⟨rig, rfl, hShows⟩
  | cons timed rest ih =>
    obtain ⟨call, time⟩ := timed
    obtain ⟨after, log, hCall, hAfter⟩ := hShows.exists_call call time
    rw [Rig.calls, hCall]
    exact ih hAfter

end Rig

end Statechart.MarkIV
