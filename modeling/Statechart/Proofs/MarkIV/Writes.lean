import Statechart.Proofs.MarkIV.Observation

/-!
# Writes in any order

Whatever is done to a register and to the hardware that keeps it, each operation writes one field.
A field therefore holds what the last operation on it wrote, or what it held at first, and the top
bit is nobody's. The byte is its fields and that bit, so operations count only by what is last on
each field: those on different fields may change places, and to repeat a list is to do nothing.
-/

namespace Statechart.MarkIV

/-- What can be done to a register, by itself or as the one that the hardware keeps. To give back
the register with a setting is to make the setting. -/
inductive Operation
  | set (setting : Setting)
  | clear (setting : Setting)
  | setFlag (setting : Setting) (on : Bool)
  | setPot (pot : Pot)
  | perform (action : Action)
  | senseReservoir (loaded : Bool)
  | sensePot (pot : Pot)
  deriving DecidableEq, Repr

namespace Operation

def apply (register : Register) : Operation → Register
  | set setting => register.set setting
  | clear setting => register.clear setting
  | setFlag setting on => register.setFlag setting on
  | setPot pot => register.setPot pot
  | perform action => (Sink.perform action (⟨register⟩ : Hardware)).1.register
  | senseReservoir loaded => ((⟨register⟩ : Hardware).setReservoir loaded).register
  | sensePot pot => ((⟨register⟩ : Hardware).setPot pot).register

def field : Operation → Field
  | set setting | clear setting | setFlag setting _ => setting.field
  | perform .valveOpen | perform .valveClose => .valve
  | perform .boilerOn | perform .boilerOff => .boiler
  | perform .warmerOn | perform .warmerOff => .warmer
  | perform .lightOn | perform .lightOff => .light
  | senseReservoir _ => .reservoir
  | setPot _ | sensePot _ => .pot

/-- What an operation makes of its field. -/
def written : Operation → BitVec 8
  | set setting => setting.bits
  | clear _ => 0
  | setFlag setting on => if on then setting.bits else 0
  | setPot pot | sensePot pot => pot.bits
  | perform .valveClose => 0x01
  | perform .boilerOn => 0x02
  | perform .warmerOn => 0x04
  | perform .lightOn => 0x08
  | perform .valveOpen | perform .boilerOff | perform .warmerOff | perform .lightOff => 0
  | senseReservoir loaded => if loaded then 0x10 else 0

def on (field : Field) (operations : List Operation) : List Operation :=
  operations.filter (·.field = field)

/-- What the last operation on a field made of it, if there was one. -/
def latest (field : Field) (operations : List Operation) : Option (BitVec 8) :=
  (on field operations).getLast?.map written

end Operation

def Register.run (register : Register) (operations : List Operation) : Register :=
  operations.foldl Operation.apply register

/-- The bit that belongs to no field. -/
def Register.spare (register : Register) : BitVec 8 :=
  register.bits &&& 0x80

/-! ## One operation -/

theorem Setting.mask_and_spare (setting : Setting) : setting.mask &&& 0x80 = 0 := by
  cases setting <;> rfl

namespace Register

theorem spare_set (register : Register) (setting : Setting) :
    (register.set setting).spare = register.spare :=
  set_bits_and setting.mask_and_spare register

theorem spare_clear (register : Register) (setting : Setting) :
    (register.clear setting).spare = register.spare :=
  clear_bits_and setting.mask_and_spare register

theorem spare_setFlag (register : Register) (setting : Setting) (on : Bool) :
    (register.setFlag setting on).spare = register.spare := by
  cases on
  · exact register.spare_clear setting
  · exact register.spare_set setting

theorem spare_setPot (register : Register) (pot : Pot) :
    (register.setPot pot).spare = register.spare := by
  cases pot
  · exact register.spare_clear .potPartlyFull
  · exact register.spare_set .potEmpty
  · exact register.spare_set .potPartlyFull

theorem spare_apply (register : Register) (operation : Operation) :
    (operation.apply register).spare = register.spare := by
  cases operation with
  | set setting => exact register.spare_set setting
  | clear setting => exact register.spare_clear setting
  | setFlag setting on => exact register.spare_setFlag setting on
  | setPot pot | sensePot pot => exact register.spare_setPot pot
  | perform action => exact register.spare_setFlag action.setting action.sets
  | senseReservoir loaded => exact register.spare_setFlag .reservoirLoaded loaded

theorem value_apply (register : Register) (operation : Operation) (field : Field) :
    (operation.apply register).value field =
      if operation.field = field then operation.written else register.value field := by
  cases operation with
  | set setting => exact register.value_set setting field
  | clear setting => exact register.value_clear setting field
  | setFlag setting on => exact register.value_setFlag setting on field
  | setPot pot | sensePot pot => exact register.value_setPot pot field
  | perform action =>
    have hValue := register.value_setFlag action.setting action.sets field
    cases action <;> exact hValue
  | senseReservoir loaded => exact register.value_setFlag .reservoirLoaded loaded field

/-! ## Many operations -/

theorem spare_run (operations : List Operation) (register : Register) :
    (register.run operations).spare = register.spare := by
  induction operations generalizing register with
  | nil => rfl
  | cons operation rest ih => exact (ih _).trans (register.spare_apply operation)

end Register

theorem Operation.latest_concat (field : Field) (operations : List Operation)
    (operation : Operation) : latest field (operations ++ [operation]) =
      if operation.field = field then some operation.written else latest field operations := by
  rw [latest, on, List.filter_append]
  split
  · next hField => simp [hField]
  · next hField => simp [hField, latest, on]

theorem Operation.latest_of_last (operation : Operation) {field : Field}
    {earlier later : List Operation} (hOn : operation.field = field)
    (hAfter : ∀ other ∈ later, other.field ≠ field) :
    latest field (earlier ++ operation :: later) = some operation.written := by
  have hNone : on field later = [] := by
    rw [on, List.filter_eq_nil_iff]
    exact fun other hOther hField => hAfter other hOther (of_decide_eq_true hField)
  rw [on] at hNone
  rw [latest, on, List.filter_append,
    List.filter_cons_of_pos (a := operation) (by simpa using hOn), hNone, List.getLast?_concat]
  rfl

namespace Register

/-- The induction is from the end of the list, as the last operation on a field decides. -/
theorem value_run (register : Register) (operations : List Operation) (field : Field) :
    (register.run operations).value field =
      (Operation.latest field operations).getD (register.value field) := by
  induction operations using List.reverseRecOn with
  | nil => rfl
  | append_singleton operations operation ih =>
    rw [run, List.foldl_append, List.foldl_cons, List.foldl_nil, value_apply,
      Operation.latest_concat]
    split
    · rfl
    · exact ih

theorem ext_of_value {register other : Register}
    (hValue : ∀ field, register.value field = other.value field)
    (hSpare : register.spare = other.spare) : register = other := by
  have hBits : ∀ register : Register, register.bits =
      register.value .valve ||| register.value .boiler ||| register.value .warmer |||
        register.value .light ||| register.value .reservoir ||| register.value .pot |||
        register.spare := by
    intro register
    calc register.bits
        = register.bits &&& (0x01 ||| 0x02 ||| 0x04 ||| 0x08 ||| 0x10 ||| 0x60 ||| 0x80) :=
          BitVec.and_allOnes.symm
      _ = _ := by
        simp only [BitVec.and_or_distrib_left]
        rfl
  have hEq : register.bits = other.bits := by
    rw [hBits register, hBits other, hSpare]
    simp only [hValue]
  cases register
  cases other
  exact congrArg Register.mk hEq

theorem run_congr {operations others : List Operation}
    (hLatest : ∀ field, Operation.latest field operations = Operation.latest field others)
    (register : Register) : register.run operations = register.run others := by
  refine ext_of_value (fun field => ?_) ?_
  · rw [value_run, value_run, hLatest]
  · rw [spare_run, spare_run]

theorem run_swap {first second : Operation} (hField : first.field ≠ second.field)
    (earlier later : List Operation) (register : Register) :
    register.run (earlier ++ first :: second :: later) =
      register.run (earlier ++ second :: first :: later) := by
  refine run_congr (fun field => ?_) register
  have hPair : Operation.on field [first, second] = Operation.on field [second, first] := by
    by_cases hFirst : first.field = field
    · have hSecond : second.field ≠ field := fun h => hField (hFirst.trans h.symm)
      simp [Operation.on, hFirst, hSecond]
    · simp [Operation.on, List.filter_cons, hFirst]
  have hAround : ∀ pair, Operation.on field (earlier ++ (pair ++ later)) =
      Operation.on field earlier ++ (Operation.on field pair ++ Operation.on field later) := by
    intro pair
    rw [Operation.on, List.filter_append, List.filter_append]
    rfl
  rw [Operation.latest, Operation.latest]
  exact congrArg (fun kept => (List.getLast? kept).map Operation.written)
    ((hAround [first, second]).trans (hPair ▸ (hAround [second, first]).symm))

theorem run_twice (operations : List Operation) (register : Register) :
    register.run (operations ++ operations) = register.run operations := by
  refine run_congr (fun field => ?_) register
  have hTwice : Operation.on field (operations ++ operations) =
      Operation.on field operations ++ Operation.on field operations := List.filter_append ..
  rw [Operation.latest, Operation.latest, hTwice]
  cases hKept : Operation.on field operations with
  | nil => rfl
  | cons operation rest =>
    rw [List.getLast?_append_of_ne_nil _ (List.cons_ne_nil operation rest)]

theorem ofSettings_eq_run (settings : List Setting) :
    ofSettings settings = run ⟨0⟩ (settings.map .set) := by
  rw [run, List.foldl_map]
  rfl

theorem value_pot_ofSettings (setting : Setting) {earlier later : List Setting}
    (hSetting : setting.field = .pot) (hLater : ∀ other ∈ later, other.field ≠ .pot) :
    (ofSettings (earlier ++ setting :: later)).value .pot = setting.bits := by
  have hAfter : ∀ operation ∈ later.map Operation.set, operation.field ≠ .pot := by
    intro operation hOperation
    obtain ⟨other, hOther, rfl⟩ := List.mem_map.mp hOperation
    exact hLater other hOther
  rw [ofSettings_eq_run, value_run, List.map_append, List.map_cons,
    Operation.latest_of_last (.set setting) hSetting hAfter]
  rfl

/-- Operations on registers and on the hardware in any order: each field ends with what the last
operation on it wrote, and as it was if there was none, and the top bit stays. Neighbours on
different fields may be exchanged anywhere, and actions fired twice leave what they leave when they
are fired once. A register made of settings is the one they leave of zeros, and of the two settings
of the pot it shows the last. -/
theorem fields_hold_last_writes (initial : Register) (operations : List Operation) :
    (∀ field, (initial.run operations).value field =
      (Operation.latest field operations).getD (initial.value field)) ∧
    (initial.run operations).bits.getLsbD 7 = initial.bits.getLsbD 7 ∧
    (∀ earlier first second later, operations = earlier ++ first :: second :: later →
      first.field ≠ second.field →
      initial.run (earlier ++ second :: first :: later) = initial.run operations) ∧
    (∀ actions : List Action,
      (initial.run operations).run (actions.map .perform ++ actions.map .perform) =
        (initial.run operations).run (actions.map .perform)) ∧
    (∀ settings, ofSettings settings = run ⟨0⟩ (settings.map .set)) ∧
    (∀ earlier later, (∀ setting ∈ later, setting ≠ .potEmpty ∧ setting ≠ .potPartlyFull) →
      (ofSettings (earlier ++ .potEmpty :: later)).pot = some .empty ∧
        (ofSettings (earlier ++ .potPartlyFull :: later)).pot = some .partlyFull) := by
  refine ⟨value_run initial operations, ?_, ?_, fun actions => run_twice _ _, ofSettings_eq_run, ?_⟩
  · have hSpare := congrArg (·.getLsbD 7) (spare_run operations initial)
    simpa [spare] using hSpare
  · rintro earlier first second later rfl hField
    exact (run_swap hField earlier later initial).symm
  · intro earlier later hLater
    have hOther : ∀ setting ∈ later, setting.field ≠ .pot := by
      intro setting hSetting hPot
      obtain ⟨hEmpty, hPartly⟩ := hLater setting hSetting
      cases setting <;> first | exact hEmpty rfl | exact hPartly rfl | cases hPot
    exact ⟨pot_of_value (value_pot_ofSettings .potEmpty rfl hOther),
      pot_of_value (value_pot_ofSettings .potPartlyFull rfl hOther)⟩

example : run ⟨0xC1⟩ [.setPot .partlyFull, .perform .valveOpen, .perform .lightOn, .sensePot .empty,
    .clear .valveClosed, .setFlag .warmerOn true, .senseReservoir false] = ⟨0xAC⟩ := by decide

end Register

end Statechart.MarkIV
