import Statechart.Proofs.MarkIV.Rig

/-!
# The byte that the rig shows

What is to be seen of a rig is the byte of its register, and nothing of it depends on how the rig
came to be where it is. The lower half tells the configuration, whatever the byte was at first and
though no state undoes on its exit what it wrote. The upper half is that of the first byte with the
two sensors as the latest calls on them left them; events do not reach it.
-/

namespace Statechart.MarkIV

/-- What the actuators contribute to the byte. -/
def actuatorBits (configuration : Configuration) : BitVec 8 :=
  (if configuration.isIn "brewRun.brewing" then 0x03 else 0) |||
    (if configuration.isIn "brewComplete" then 0x08 else 0) |||
    (if configuration.isIn "warmRun" then 0x04 else 0)

/-- What a call makes of a sensor's field, if it sets that sensor. -/
def Call.written : Field → Call → Option (BitVec 8)
  | .reservoir, loadReservoir => some 0x10
  | .reservoir, emptyReservoir => some 0x00
  | .pot, potPartial => some 0x60
  | .pot, removePot => some 0x00
  | .pot, emptyPot => some 0x20
  | _, _ => none

/-- What the latest call that set a sensor made of its field. -/
def Call.latest (field : Field) (calls : List Call) : Option (BitVec 8) :=
  calls.reverse.findSome? (written field)

def Field.overwrite (field : Field) (written : Option (BitVec 8)) (byte : BitVec 8) : BitVec 8 :=
  match written with
  | none => byte
  | some bits => byte &&& ~~~field.mask ||| bits

/-- The upper half of a byte with the sensors overwritten by the latest calls on them. -/
def sensorBits (initial : BitVec 8) (calls : List Call) : BitVec 8 :=
  Field.pot.overwrite (Call.latest .pot calls)
    (Field.reservoir.overwrite (Call.latest .reservoir calls) (initial &&& 0xF0))

example : sensorBits 0xCF [.loadReservoir, .removePot, .clickBrew, .emptyPot, .emptyReservoir] =
    0xA0 := by decide

/-! ## Fields overwritten -/

theorem Call.and_mask_of_written {field : Field} {call : Call} {bits : BitVec 8}
    (hWritten : call.written field = some bits) : bits &&& field.mask = bits := by
  cases field <;> cases call <;> cases hWritten <;> rfl

theorem Call.and_mask_of_latest {field : Field} {calls : List Call} {bits : BitVec 8}
    (hLatest : latest field calls = some bits) : bits &&& field.mask = bits := by
  obtain ⟨call, _, hWritten⟩ := List.exists_of_findSome?_eq_some hLatest
  exact and_mask_of_written hWritten

theorem Call.latest_cons (field : Field) (call : Call) (rest : List Call) :
    latest field (call :: rest) = (latest field rest).or (call.written field) := by
  rw [latest, latest, List.reverse_cons, List.findSome?_append, List.findSome?_singleton]

section Overwrite

variable {field other : Field} {earlier later : Option (BitVec 8)}

theorem Field.overwrite_overwrite
    (hEarlier : ∀ bits, earlier = some bits → bits &&& field.mask = bits) (byte : BitVec 8) :
    field.overwrite later (field.overwrite earlier byte) =
      field.overwrite (later.or earlier) byte := by
  cases later with
  | none => rfl
  | some written =>
    cases earlier with
    | none => rfl
    | some bits =>
      have hBits := hEarlier bits rfl
      show (byte &&& ~~~field.mask ||| bits) &&& ~~~field.mask ||| written =
        byte &&& ~~~field.mask ||| written
      rw [← hBits]
      generalize field.mask = mask
      ext i hi
      simp
      grind

theorem Field.overwrite_comm (hNe : field ≠ other)
    (hEarlier : ∀ bits, earlier = some bits → bits &&& field.mask = bits)
    (hLater : ∀ bits, later = some bits → bits &&& other.mask = bits) (byte : BitVec 8) :
    field.overwrite earlier (other.overwrite later byte) =
      other.overwrite later (field.overwrite earlier byte) := by
  cases earlier with
  | none => rfl
  | some bits =>
    cases later with
    | none => rfl
    | some written =>
      have hBits := hEarlier bits rfl
      have hWritten := hLater written rfl
      have hDisjoint := Field.mask_and_mask hNe
      show (byte &&& ~~~other.mask ||| written) &&& ~~~field.mask ||| bits =
        (byte &&& ~~~field.mask ||| bits) &&& ~~~other.mask ||| written
      rw [← hBits, ← hWritten]
      generalize field.mask = mask at hDisjoint
      generalize other.mask = mask' at hDisjoint
      ext i hi
      have hBit := congrArg (fun byte : BitVec 8 => byte[i]) hDisjoint
      simp at hBit ⊢
      grind

end Overwrite

/-- What a call makes of the sensors. -/
def Call.overwrites (byte : BitVec 8) (call : Call) : BitVec 8 :=
  Field.pot.overwrite (call.written .pot)
    (Field.reservoir.overwrite (call.written .reservoir) byte)

theorem foldl_overwrites (calls : List Call) (byte : BitVec 8) :
    calls.foldl Call.overwrites byte = Field.pot.overwrite (Call.latest .pot calls)
      (Field.reservoir.overwrite (Call.latest .reservoir calls) byte) := by
  induction calls generalizing byte with
  | nil => rfl
  | cons call rest ih =>
    rw [List.foldl_cons, ih, Call.overwrites, Call.latest_cons, Call.latest_cons]
    rw [Field.overwrite_comm (show Field.reservoir ≠ .pot by decide)
      (fun _ => Call.and_mask_of_latest) (fun _ => Call.and_mask_of_written)]
    rw [Field.overwrite_overwrite fun _ => Call.and_mask_of_written,
      Field.overwrite_overwrite fun _ => Call.and_mask_of_written]

/-! ## The upper half -/

def Register.sensors (register : Register) : BitVec 8 :=
  register.bits &&& 0xF0

theorem Action.mask_and_upper (action : Action) : action.setting.mask &&& 0xF0 = 0 := by
  cases action <;> rfl

theorem Hardware.sensors_write (hardware : Hardware) (action : Action) :
    (hardware.write action).register.sensors = hardware.register.sensors := by
  rw [write, Register.setFlag]
  split
  · exact Register.set_bits_and action.mask_and_upper _
  · exact Register.clear_bits_and action.mask_and_upper _

theorem Hardware.sensors_performAll (actions : List Action) (hardware : Hardware) :
    (Flat.performAll actions hardware).register.sensors = hardware.register.sensors := by
  induction actions generalizing hardware with
  | nil => rfl
  | cons action rest ih => exact (ih (hardware.write action)).trans (hardware.sensors_write action)

theorem Register.sensors_clear (register : Register) (setting : Setting) :
    (register.clear setting).sensors = setting.field.overwrite (some 0) register.sensors := by
  show register.bits &&& ~~~setting.mask &&& 0xF0 =
    register.bits &&& 0xF0 &&& ~~~setting.mask ||| 0#8
  rw [BitVec.or_zero, BitVec.and_assoc, BitVec.and_assoc, BitVec.and_comm (~~~setting.mask)]

theorem Register.sensors_set (register : Register) (setting : Setting)
    (hUpper : setting.bits &&& 0xF0 = setting.bits) : (register.set setting).sensors =
      setting.field.overwrite (some setting.bits) register.sensors := by
  show (setting.bits ||| register.bits &&& ~~~setting.mask) &&& 0xF0 =
    register.bits &&& 0xF0 &&& ~~~setting.mask ||| setting.bits
  rw [BitVec.and_or_distrib_right, hUpper, BitVec.or_comm, BitVec.and_assoc, BitVec.and_assoc,
    BitVec.and_comm (~~~setting.mask)]

theorem Call.sensors_sense (call : Call) (hardware : Hardware) :
    (call.sense hardware).register.sensors = call.overwrites hardware.register.sensors := by
  cases call with
  | loadReservoir => exact Register.sensors_set _ .reservoirLoaded rfl
  | emptyReservoir => exact Register.sensors_clear _ .reservoirLoaded
  | potPartial => exact Register.sensors_set _ .potPartlyFull rfl
  | removePot => exact Register.sensors_clear _ .potPartlyFull
  | emptyPot => exact Register.sensors_set _ .potEmpty rfl
  | clickBrew | send => rfl

/-! ## The rig -/

namespace Rig

theorem sensors_assemble {initial : Register} {rig : Rig} {log : List Log.Entry}
    (hAssemble : Rig.assemble initial = .ok (rig, log)) :
    rig.register.sensors = initial.sensors := by
  obtain ⟨execution, outcome, hExecution, hFresh, hStart, _, hSink⟩ :=
    Policy.exists_start (⟨initial⟩ : Hardware)
  rw [assemble, hExecution] at hAssemble
  simp only [ofExecution, Execution.isStarted, hFresh, Option.isSome_none, Bool.false_eq_true,
    if_false, hStart] at hAssemble
  cases hAssemble
  rw [register, hSink]
  exact Hardware.sensors_performAll _ _

theorem sensors_send {rig after : Rig} {event : Event} {time : Timestamp} {log : List Log.Entry}
    (hSend : rig.send event time = .ok (after, log)) :
    after.register.sensors = rig.register.sensors := by
  cases hActive : rig.execution.active with
  | none =>
    rw [send, Execution.process, hActive] at hSend
    cases hSend
  | some paths =>
    obtain ⟨outcome, hOutcome, hProcessed⟩ := Execution.exists_processed hActive event time
    rw [send, hOutcome] at hSend
    cases hSend
    rw [register, hProcessed.sink]
    exact Hardware.sensors_performAll _ _

theorem sensors_call {rig after : Rig} {call : Call} {time : Timestamp} {log : List Log.Entry}
    (hCall : rig.call call time = .ok (after, log)) :
    after.register.sensors = call.overwrites rig.register.sensors := by
  have hSense := call.sensors_sense rig.execution.sink
  rw [Rig.call] at hCall
  simp only at hCall
  split at hCall
  · cases hCall
    exact hSense
  · exact (sensors_send hCall).trans hSense

theorem sensors_calls {rig after : Rig} {calls : List (Call × Timestamp)}
    (hCalls : rig.calls calls = .ok after) :
    after.register.sensors = (calls.map (·.1)).foldl Call.overwrites rig.register.sensors := by
  induction calls generalizing rig with
  | nil =>
    cases hCalls
    rfl
  | cons timed rest ih =>
    obtain ⟨call, time⟩ := timed
    rw [Rig.calls] at hCalls
    cases hCall : rig.call call time with
    | error failure =>
      rw [hCall] at hCalls
      cases hCalls
    | ok answer =>
      rw [hCall] at hCalls
      rw [ih hCalls, sensors_call hCall]
      rfl

end Rig

/-! ## The lower half -/

theorem Register.value_eq_ite {field : Field} {bit : Nat} (hMask : field.mask = BitVec.twoPow 8 bit)
    (register : Register) :
    register.value field = if register.has field = true then field.mask else 0 := by
  have hValue : register.value field =
      if register.bits.getLsbD bit = true then field.mask else 0 := by
    rw [value, hMask]
    exact BitVec.and_twoPow ..
  rw [has_eq]
  split
  · next hSet =>
    have hNonzero : register.value field ≠ 0 := of_decide_eq_true hSet
    rw [hValue]
    refine if_pos ?_
    by_contra hBit
    exact hNonzero (hValue.trans (if_neg hBit))
  · next hUnset => simpa using hUnset

theorem Register.bits_eq_halves (register : Register) :
    register.bits = (register.value .valve ||| register.value .boiler ||| register.value .light |||
      register.value .warmer) ||| register.sensors := by
  calc register.bits
      = register.bits &&& (0x01 ||| 0x02 ||| 0x08 ||| 0x04 ||| 0xF0) := BitVec.and_allOnes.symm
    _ = (register.bits &&& 0x01 ||| register.bits &&& 0x02 ||| register.bits &&& 0x08 |||
          register.bits &&& 0x04) ||| register.bits &&& 0xF0 := by
      simp only [BitVec.and_or_distrib_left]
    _ = (register.value .valve ||| register.value .boiler ||| register.value .light |||
          register.value .warmer) ||| register.sensors := rfl

theorem actuatorBits_configurationOf (brew : Brew) (warm : Warm) :
    actuatorBits (configurationOf brew warm) =
      (if driven brew warm .valve = true then Field.valve.mask else 0) |||
        (if driven brew warm .boiler = true then Field.boiler.mask else 0) |||
        (if driven brew warm .light = true then Field.light.mask else 0) |||
        (if driven brew warm .warmer = true then Field.warmer.mask else 0) := by
  cases brew <;> cases warm <;> rfl

theorem Drives.bits_eq {brew : Brew} {warm : Warm} {register : Register}
    (hDrives : Drives brew warm register) :
    register.bits = actuatorBits (configurationOf brew warm) ||| register.sensors := by
  have hValve : Field.valve.mask = BitVec.twoPow 8 0 := rfl
  have hBoiler : Field.boiler.mask = BitVec.twoPow 8 1 := rfl
  have hWarmer : Field.warmer.mask = BitVec.twoPow 8 2 := rfl
  have hLight : Field.light.mask = BitVec.twoPow 8 3 := rfl
  rw [actuatorBits_configurationOf, ← hDrives .valve rfl, ← hDrives .boiler rfl,
    ← hDrives .light rfl, ← hDrives .warmer rfl, ← Register.value_eq_ite hValve,
    ← Register.value_eq_ite hBoiler, ← Register.value_eq_ite hLight,
    ← Register.value_eq_ite hWarmer]
  exact register.bits_eq_halves

/-- A rig assembled on any byte answers every call, also events that no sensor raised, and the byte
it then shows is told by the configuration and by what the calls did to the sensors: the list of
calls is any, thus the calls up to any moment of a longer run. Sending an event leaves the upper
half of the byte as it is, and the boiler and the light are never on together. -/
theorem Rig.bits_of_calls (initial : Register) (calls : List (Call × Timestamp)) :
    ∃ assembled log rig configuration,
      Rig.assemble initial = .ok (assembled, log) ∧
      assembled.calls calls = .ok rig ∧
      rig.configuration = .ok configuration ∧
      rig.register.bits =
        actuatorBits configuration ||| sensorBits initial.bits (calls.map (·.1)) ∧
      (∀ event time, ∃ after log, rig.send event time = .ok (after, log) ∧
        after.register.bits &&& 0xF0 = rig.register.bits &&& 0xF0) ∧
      ¬ (rig.register.has .boiler = true ∧ rig.register.has .light = true) := by
  obtain ⟨assembled, log, hAssemble, hInitial⟩ := Rig.exists_assemble initial
  obtain ⟨rig, hRig, hShows⟩ := hInitial.exists_calls calls
  refine ⟨assembled, log, rig, _, hAssemble, hRig, hShows.configuration, ?_, ?_, ?_⟩
  · rw [hShows.drives.bits_eq, sensors_calls hRig, sensors_assemble hAssemble, foldl_overwrites]
    rfl
  · intro event time
    obtain ⟨after, log, hSend, _⟩ := hShows.exists_send event time
    exact ⟨after, log, hSend, sensors_send hSend⟩
  · rw [hShows.drives .boiler rfl, hShows.drives .light rfl, driven, driven, decide_eq_true_iff,
      decide_eq_true_iff]
    rintro ⟨hBrewing, hComplete⟩
    cases hBrewing.symm.trans hComplete

end Statechart.MarkIV
