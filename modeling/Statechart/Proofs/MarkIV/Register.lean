import Statechart.MarkIV.Hardware
import Statechart.Proofs.Flat.Run

/-!
# Writes to the register

The fields share a byte and no bit of it: a write gives its own field the value written and leaves
the value of every other field as it was. A list of actions thus leaves in each actuator what the
last action on it wrote, and no action reaches a sensor.
-/

namespace Statechart.MarkIV

theorem Field.mask_and_mask {field other : Field} (hNe : field ≠ other) :
    field.mask &&& other.mask = 0 := by
  cases field <;> cases other <;> first | rfl | exact absurd rfl hNe

theorem Setting.bits_and_mask (setting : Setting) :
    setting.bits &&& setting.mask = setting.bits := by
  cases setting <;> rfl

theorem Setting.bits_ne_zero (setting : Setting) : setting.bits ≠ 0 := by
  cases setting <;> decide

def Pot.bits : Pot → BitVec 8
  | removed => 0x00
  | empty => 0x20
  | partlyFull => 0x60

namespace Register

/-! ## The bits under a mask -/

theorem and_not_and_of_disjoint {bits mask other : BitVec 8} (hDisjoint : mask &&& other = 0) :
    bits &&& ~~~mask &&& other = bits &&& other := by
  ext i hi
  have hBit := congrArg (fun bits : BitVec 8 => bits[i]) hDisjoint
  simp at hBit ⊢
  grind

theorem clear_bits_and {setting : Setting} {mask : BitVec 8} (hDisjoint : setting.mask &&& mask = 0)
    (register : Register) : (register.clear setting).bits &&& mask = register.bits &&& mask :=
  and_not_and_of_disjoint hDisjoint

theorem set_bits_and {setting : Setting} {mask : BitVec 8} (hDisjoint : setting.mask &&& mask = 0)
    (register : Register) : (register.set setting).bits &&& mask = register.bits &&& mask := by
  have hSetting : setting.bits &&& mask = 0 := by
    rw [← setting.bits_and_mask, BitVec.and_assoc, hDisjoint]
    exact BitVec.and_zero
  calc (register.set setting).bits &&& mask
      = setting.bits &&& mask ||| register.bits &&& ~~~setting.mask &&& mask :=
        BitVec.and_or_distrib_right
    _ = 0 ||| register.bits &&& mask := by rw [hSetting, and_not_and_of_disjoint hDisjoint]
    _ = register.bits &&& mask := BitVec.zero_or

/-! ## The value of a field -/

def value (register : Register) (field : Field) : BitVec 8 :=
  register.bits &&& field.mask

theorem value_clear (register : Register) (setting : Setting) (field : Field) :
    (register.clear setting).value field =
      if setting.field = field then 0 else register.value field := by
  split
  · next hField =>
    rw [← hField]
    exact (BitVec.and_assoc ..).trans
      ((congrArg _ (BitVec.not_and_self _)).trans BitVec.and_zero)
  · next hField => exact clear_bits_and (Field.mask_and_mask hField) register

theorem value_set (register : Register) (setting : Setting) (field : Field) :
    (register.set setting).value field =
      if setting.field = field then setting.bits else register.value field := by
  split
  · next hField =>
    have hCleared : (register.clear setting).value field = 0 := by
      rw [value_clear, if_pos hField]
    rw [← hField] at hCleared ⊢
    calc (register.set setting).value setting.field
        = setting.bits &&& setting.mask ||| (register.clear setting).value setting.field :=
          BitVec.and_or_distrib_right
      _ = setting.bits := by rw [hCleared, setting.bits_and_mask]; exact BitVec.or_zero
  · next hField => exact set_bits_and (Field.mask_and_mask hField) register

theorem value_setFlag (register : Register) (setting : Setting) (on : Bool) (field : Field) :
    (register.setFlag setting on).value field =
      if setting.field = field then (if on then setting.bits else 0)
      else register.value field := by
  cases on
  · exact value_clear register setting field
  · exact value_set register setting field

theorem has_eq (register : Register) (field : Field) :
    register.has field = decide (register.value field ≠ 0) :=
  rfl

theorem pot_of_value {register : Register} {pot : Pot} (hPot : register.value .pot = pot.bits) :
    register.pot = some pot := by
  rw [value] at hPot
  rw [Register.pot, hPot]
  cases pot <;> rfl

theorem pot_congr {register other : Register} (hPot : register.value .pot = other.value .pot) :
    register.pot = other.pot := by
  rw [value, value] at hPot
  rw [pot, pot, hPot]

theorem has_setFlag (register : Register) (setting : Setting) (on : Bool) (field : Field) :
    (register.setFlag setting on).has field =
      if setting.field = field then on else register.has field := by
  rw [has_eq, value_setFlag]
  split
  · cases on
    · rfl
    · exact decide_eq_true setting.bits_ne_zero
  · rfl

theorem pot_setFlag {setting : Setting} (hField : setting.field ≠ .pot) (register : Register)
    (on : Bool) : (register.setFlag setting on).pot = register.pot :=
  pot_congr ((value_setFlag register setting on .pot).trans (if_neg hField))

theorem value_setPot (register : Register) (pot : Pot) (field : Field) :
    (register.setPot pot).value field =
      if Field.pot = field then pot.bits else register.value field := by
  cases pot
  · exact value_clear register .potPartlyFull field
  · exact value_set register .potEmpty field
  · exact value_set register .potPartlyFull field

theorem has_setPot {field : Field} (hField : Field.pot ≠ field) (register : Register) (pot : Pot) :
    (register.setPot pot).has field = register.has field := by
  rw [has_eq, value_setPot, if_neg hField, has_eq]

theorem pot_setPot (register : Register) (pot : Pot) :
    (register.setPot pot).pot = some pot :=
  pot_of_value (value_setPot register pot .pot)

end Register

/-! ## Actions on the hardware -/

/-- What a flag holds after some actions: what the last action on it wrote. -/
def Action.written (field : Field) (actions : List Action) (on : Bool) : Bool :=
  actions.foldl (fun on action => if action.setting.field = field then action.sets else on) on

def Field.isActuator : Field → Bool
  | valve | boiler | warmer | light => true
  | reservoir | pot => false

theorem Action.isActuator_field (action : Action) : action.setting.field.isActuator = true := by
  cases action <;> rfl

theorem Action.field_ne {field : Field} (hSensor : field.isActuator = false) (action : Action) :
    action.setting.field ≠ field := by
  rintro rfl
  exact Bool.false_ne_true (hSensor.symm.trans action.isActuator_field)

namespace Hardware

theorem has_performAll (actions : List Action) (hardware : Hardware) (field : Field) :
    (Flat.performAll actions hardware).register.has field =
      Action.written field actions (hardware.register.has field) := by
  induction actions generalizing hardware with
  | nil => rfl
  | cons action rest ih =>
    calc (Flat.performAll rest (hardware.write action)).register.has field
        = Action.written field rest ((hardware.write action).register.has field) := ih _
      _ = Action.written field (action :: rest) (hardware.register.has field) := by
        rw [write, Register.has_setFlag]
        rfl

theorem value_performAll {field : Field} (hSensor : field.isActuator = false)
    (actions : List Action) (hardware : Hardware) :
    (Flat.performAll actions hardware).register.value field = hardware.register.value field := by
  induction actions generalizing hardware with
  | nil => rfl
  | cons action rest ih =>
    calc (Flat.performAll rest (hardware.write action)).register.value field
        = (hardware.write action).register.value field := ih _
      _ = hardware.register.value field :=
        (Register.value_setFlag ..).trans (if_neg (action.field_ne hSensor))

theorem reservoirLoaded_performAll (actions : List Action) (hardware : Hardware) :
    (Flat.performAll actions hardware).reservoirLoaded = hardware.reservoirLoaded := by
  rw [reservoirLoaded, reservoirLoaded, Register.has_eq, Register.has_eq, value_performAll rfl]

theorem pot_performAll (actions : List Action) (hardware : Hardware) :
    (Flat.performAll actions hardware).pot = hardware.pot :=
  Register.pot_congr (value_performAll rfl actions hardware)

end Hardware

end Statechart.MarkIV
