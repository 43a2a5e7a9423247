import Statechart.Proofs.MarkIV.Rig

/-!
# Safety of the boiler and the warmer

As long as every event comes from a sensor, water is heated only with a loaded reservoir and a
pot in place, and the warmer is on only under coffee. The sensors may start with any reading, also
with one of the pot that means nothing: the brew cycle starts on a reading of its own, and the
warmer follows the pot from the first time that it is moved.
-/

namespace Statechart.MarkIV

namespace Call

def IsSensed (call : Call) : Prop :=
  ∀ event, call ≠ .send event

def movesPot : Call → Bool
  | potPartial | removePot | emptyPot => true
  | loadReservoir | clickBrew | emptyReservoir | send _ => false

end Call

/-- What the sensors say whenever the brew cycle is in a mode. -/
def Brew.Guarded (reservoir : Bool) (pot : Option Pot) : Brew → Prop
  | idle | complete => True
  | brewing => reservoir = true ∧ (pot = some .empty ∨ pot = some .partlyFull)
  | waiting => reservoir = true ∧ pot = some .removed

/-- What the pot is whenever the warmer is in a mode. Before the pot was first moved, coffee may
stand on a warmer that is off. -/
def Warm.Guarded (moved : Bool) (pot : Option Pot) : Warm → Prop
  | idle => moved = true → pot ≠ some .partlyFull
  | running => pot = some .partlyFull

namespace Situation

structure Guarded (moved : Bool) (situation : Situation) : Prop where
  brew : situation.brew.Guarded situation.reservoir situation.pot
  warm : situation.warm.Guarded moved situation.pot

theorem guarded_initial (register : Register) : (initial register).Guarded false :=
  ⟨trivial, nofun⟩

/-! ## One call -/

theorem brewGuarded_call {situation : Situation} {call : Call} (hCall : call.IsSensed)
    (hBrew : situation.brew.Guarded situation.reservoir situation.pot) :
    (situation.call call).brew.Guarded (situation.call call).reservoir
      (situation.call call).pot := by
  obtain ⟨reservoir, pot, brew, warm⟩ := situation
  cases call with
  | send event => exact absurd rfl (hCall event)
  | loadReservoir =>
    cases brew with
    | idle | complete => trivial
    | brewing | waiting => exact ⟨rfl, hBrew.2⟩
  | clickBrew =>
    show (Brew.table.next (.brewClicked (!reservoir) (pot == some .empty)) brew).Guarded
      reservoir pot
    rw [Brew.next_brewClicked]
    split
    · next hStarts =>
      -- What the click carries was read from the sensors in the same call.
      obtain ⟨hReservoir, hEmpty, _⟩ := hStarts
      exact ⟨by simpa using hReservoir, Or.inl (eq_of_beq hEmpty)⟩
    · exact hBrew
  | emptyReservoir =>
    -- Both modes that need water are left for the one that is complete.
    cases brew <;> trivial
  | potPartial =>
    cases brew with
    | idle | complete => trivial
    | brewing | waiting => exact ⟨hBrew.1, Or.inr rfl⟩
  | removePot =>
    cases brew with
    | idle | complete => trivial
    | brewing | waiting => exact ⟨hBrew.1, rfl⟩
  | emptyPot =>
    cases brew with
    | idle | complete => trivial
    | brewing | waiting => exact ⟨hBrew.1, Or.inl rfl⟩

theorem warmGuarded_call {moved : Bool} {situation : Situation} {call : Call}
    (hCall : call.IsSensed) (hWarm : situation.warm.Guarded moved situation.pot) :
    (situation.call call).warm.Guarded (moved || call.movesPot) (situation.call call).pot := by
  obtain ⟨reservoir, pot, brew, warm⟩ := situation
  cases call with
  | send event => exact absurd rfl (hCall event)
  | loadReservoir =>
    rw [Call.movesPot, Bool.or_false]
    exact hWarm
  | clickBrew | emptyReservoir =>
    rw [Call.movesPot, Bool.or_false]
    cases warm <;> exact hWarm
  | potPartial => cases warm <;> rfl
  | removePot | emptyPot => cases warm <;> exact fun _ => nofun

theorem Guarded.call {moved : Bool} {situation : Situation} (hGuarded : situation.Guarded moved)
    {call : Call} (hCall : call.IsSensed) :
    (situation.call call).Guarded (moved || call.movesPot) :=
  ⟨brewGuarded_call hCall hGuarded.brew, warmGuarded_call hCall hGuarded.warm⟩

theorem Guarded.calls {moved : Bool} {situation : Situation} (hGuarded : situation.Guarded moved)
    {calls : List Call} (hCalls : ∀ call ∈ calls, call.IsSensed) :
    (situation.calls calls).Guarded (moved || calls.any Call.movesPot) := by
  induction calls generalizing moved situation with
  | nil =>
    rw [List.any_nil, Bool.or_false]
    exact hGuarded
  | cons call rest ih =>
    rw [List.any_cons, ← Bool.or_assoc]
    exact ih (hGuarded.call (hCalls call List.mem_cons_self))
      fun other hOther => hCalls other (List.mem_cons_of_mem _ hOther)

end Situation

/-! ## The rig -/

/-- The brew region is in the state that the ids lead to, or in one inside it. -/
def BrewIn (configuration : Configuration) (ids : List String) : Prop :=
  ∃ below, configuration.active "brewControl" = some (ids ++ below)

structure Safe (configuration : Configuration) (register : Register) : Prop where
  heating : register.has .boiler = true ∨ register.has .valve = true →
    register.has .reservoir = true ∧
      (register.pot = some .empty ∨ register.pot = some .partlyFull)
  loaded : BrewIn configuration ["brewRun"] → register.has .reservoir = true
  waiting : BrewIn configuration ["brewRun"] →
    (BrewIn configuration ["brewRun", "waiting"] ↔ register.pot = some .removed)
  warming : register.has .warmer = true → register.pot = some .partlyFull

theorem brewIn_configurationOf (brew : Brew) (warm : Warm) (ids : List String) :
    BrewIn (configurationOf brew warm) ids ↔ ids <+: brew.states := by
  have hActive : (configurationOf brew warm).active "brewControl" = some brew.states := rfl
  rw [BrewIn, hActive, List.IsPrefix]
  exact exists_congr fun below => by rw [Option.some_inj, eq_comm]

theorem Brew.inRun_iff (brew : Brew) :
    ["brewRun"] <+: brew.states ↔ brew = .brewing ∨ brew = .waiting := by
  cases brew <;> decide

theorem Brew.inWaiting_iff (brew : Brew) :
    ["brewRun", "waiting"] <+: brew.states ↔ brew = .waiting := by
  cases brew <;> decide

theorem Rig.Shows.safe {rig : Rig} {situation : Situation} (hShows : rig.Shows situation)
    {moved : Bool} (hGuarded : situation.Guarded moved) :
    Safe (configurationOf situation.brew situation.warm) rig.register := by
  have hReservoir : rig.register.has .reservoir = situation.reservoir := hShows.reservoir
  have hPot : rig.register.pot = situation.pot := hShows.pot
  obtain ⟨reservoir, pot, brew, warm⟩ := situation
  obtain ⟨hBrew, hWarm⟩ := hGuarded
  refine ⟨?_, ?_, ?_, ?_⟩
  · rw [hShows.drives .boiler rfl, hShows.drives .valve rfl, driven, driven, or_self,
      decide_eq_true_iff, hReservoir, hPot]
    rintro rfl
    exact hBrew
  · rw [brewIn_configurationOf, Brew.inRun_iff, hReservoir]
    rintro (rfl | rfl)
    · exact hBrew.1
    · exact hBrew.1
  · rw [brewIn_configurationOf, brewIn_configurationOf, Brew.inRun_iff, Brew.inWaiting_iff, hPot]
    rintro (rfl | rfl)
    · refine iff_of_false nofun ?_
      rintro rfl
      rcases hBrew.2 with h | h <;> cases h
    · exact iff_of_true rfl hBrew.2
  · rw [hShows.drives .warmer rfl, driven, decide_eq_true_iff, hPot]
    rintro rfl
    exact hWarm

theorem Rig.Shows.warmer_iff {rig : Rig} {situation : Situation} (hShows : rig.Shows situation)
    (hGuarded : situation.Guarded true) :
    rig.register.has .warmer = true ↔ rig.register.pot = some .partlyFull := by
  have hPot : rig.register.pot = situation.pot := hShows.pot
  obtain ⟨reservoir, pot, brew, warm⟩ := situation
  rw [hShows.drives .warmer rfl, driven, decide_eq_true_iff, hPot]
  cases warm with
  | idle => exact iff_of_false nofun (hGuarded.warm rfl)
  | running => exact iff_of_true rfl hGuarded.warm

/-- A rig assembled on any byte answers every call, and it is safe after each: the list of calls
is any, thus the calls up to any moment of a longer run. -/
theorem Rig.boiler_safe_of_calls (initial : Register) (calls : List (Call × Timestamp))
    (hCalls : ∀ call ∈ calls, ∀ event, call.1 ≠ .send event) :
    ∃ assembled log rig configuration,
      Rig.assemble initial = .ok (assembled, log) ∧
      assembled.calls calls = .ok rig ∧
      rig.configuration = .ok configuration ∧
      Safe configuration rig.register ∧
      ((∃ call ∈ calls, call.1 = .potPartial ∨ call.1 = .removePot ∨ call.1 = .emptyPot) →
        (rig.register.has .warmer = true ↔ rig.register.pot = some .partlyFull)) := by
  obtain ⟨assembled, log, hAssemble, hInitial⟩ := Rig.exists_assemble initial
  obtain ⟨rig, hRig, hShows⟩ := hInitial.exists_calls calls
  have hSensed : ∀ call ∈ calls.map (·.1), call.IsSensed := by
    intro call hCall
    obtain ⟨timed, hTimed, rfl⟩ := List.mem_map.mp hCall
    exact hCalls timed hTimed
  have hGuarded := (Situation.guarded_initial initial).calls hSensed
  refine ⟨assembled, log, rig, _, hAssemble, hRig, hShows.configuration, hShows.safe hGuarded, ?_⟩
  rintro ⟨call, hCall, hMoves⟩
  have hMoved : (calls.map (·.1)).any Call.movesPot = true := by
    refine List.any_eq_true.mpr ⟨call.1, List.mem_map_of_mem hCall, ?_⟩
    rcases hMoves with h | h | h <;> rw [h] <;> rfl
  rw [hMoved] at hGuarded
  exact hShows.warmer_iff hGuarded

theorem Rig.boiler_safe_while_pot_is_away : ∃ assembled log rig configuration,
    Rig.assemble ⟨0x40⟩ = .ok (assembled, log) ∧
    assembled.calls [(.emptyPot, ⟨0, 0⟩), (.loadReservoir, ⟨1, 0⟩), (.clickBrew, ⟨2, 0⟩),
      (.removePot, ⟨3, 0⟩)] = .ok rig ∧
    rig.configuration = .ok configuration ∧
    BrewIn configuration ["brewRun", "waiting"] ∧ rig.register = ⟨0x10⟩ ∧
    Safe configuration rig.register ∧
    (rig.register.has .warmer = true ↔ rig.register.pot = some .partlyFull) := by
  obtain ⟨assembled, log, rig, configuration, hAssemble, hRig, hConfiguration, hSafe, hWarmer⟩ :=
    Rig.boiler_safe_of_calls ⟨0x40⟩ [(.emptyPot, ⟨0, 0⟩), (.loadReservoir, ⟨1, 0⟩),
      (.clickBrew, ⟨2, 0⟩), (.removePot, ⟨3, 0⟩)] (by simp)
  refine ⟨assembled, log, rig, configuration, hAssemble, hRig, hConfiguration, ?_, ?_, hSafe,
    hWarmer ⟨_, List.mem_cons_self, Or.inr (Or.inr rfl)⟩⟩
  · cases hAssemble
    cases hRig
    cases hConfiguration
    exact ⟨[], rfl⟩
  · cases hAssemble
    cases hRig
    rfl

end Statechart.MarkIV
