import Statechart.Proofs.Calls

/-!
# Acceptance

Asking whether an event is accepted and processing it are two recursions over the active states.
They agree: an event is accepted exactly if processing it takes a transition in some region, which
is when the log of the call does not end by saying that the event was ignored. An event that is not
accepted leaves everything as it was, the sink included.
-/

namespace Statechart

variable {C E A S : Type}

/-- A reaction that moves says so, and one that does not move reports refusals and nothing else. -/
structure Reaction.Reported (reaction : Reaction A) : Prop where
  moved : reaction.moved = true →
    ∃ region source target event, .moved region source target event ∈ reaction.effects
  idle : reaction.moved = false → ∀ effect ∈ reaction.effects,
    ∃ region state event, effect = .refused region state event

namespace Machine

variable [Event E] {context : C} {event : E}

theorem any_isOpen_eq_isSome_choice (context : C) (event : E) (state : State C E A) :
    ((state.label.candidates (Event.kind event)).any fun candidate =>
      candidate.isOpen context event) = (State.choice context event state).isSome := by
  rw [State.choice, List.isSome_find?]

theorem Region.moved_ownReaction (region : Region C E A) (path : List Nat) (state : State C E A) :
    (Region.ownReaction context event region path state).moved =
      (State.choice context event state).isSome := by
  cases hChoice : State.choice context event state with
  | none =>
    rw [Reaction.moved, (ownReaction_of_choice_eq_none hChoice).1]
    rfl
  | some candidate =>
    rw [ownReaction_of_choice_eq_some hChoice]
    rfl

theorem Region.reported_ownReaction (context : C) (event : E) (region : Region C E A) (path : List Nat)
    (state : State C E A) : (Region.ownReaction context event region path state).Reported := by
  rw [Region.ownReaction]
  cases choose context event (state.label.candidates (Event.kind event)) with
  | undeclared => exact ⟨by rintro ⟨⟩, by rintro _ _ ⟨⟩⟩
  | refused =>
    refine ⟨by rintro ⟨⟩, ?_⟩
    intro _ effect hEffect
    exact ⟨_, _, _, List.mem_singleton.mp hEffect⟩
  | taken candidate => exact ⟨fun _ => ⟨_, _, _, _, List.mem_cons_self⟩, by rintro ⟨⟩⟩

variable {region : Region C E A}

theorem Region.reported_react {path : List Nat} (hPath : region.FullPath path) :
    (Region.react context event region path).Reported := by
  induction hPath with
  | atomic hState hAtomic =>
    rw [react_of_atomic hState hAtomic]
    exact reported_ownReaction ..
  | @composite region inner index state below hState hInner _ ih =>
    cases hBelow : (Region.react context event inner below).path with
    | some path =>
      rw [react_of_inner_moved hState hInner hBelow]
      exact ⟨fun _ => ih.moved (by rw [Reaction.moved, hBelow]; rfl), by rintro ⟨⟩⟩
    | none =>
      have hOwn := reported_ownReaction context event region (index :: below) state
      rw [react_of_inner_idle hState hInner hBelow]
      constructor
      · intro hMoved
        obtain ⟨name, source, target, kind, hEffect⟩ := hOwn.moved hMoved
        exact ⟨name, source, target, kind, List.mem_append_right _ hEffect⟩
      · intro hIdle effect hEffect
        rcases List.mem_append.mp hEffect with hEffect | hEffect
        · exact ih.idle (by rw [Reaction.moved, hBelow]; rfl) effect hEffect
        · exact hOwn.idle hIdle effect hEffect

/-- Asking and reacting look at the same candidates, level by level. -/
theorem Region.accepts_eq_moved {path : List Nat} (hPath : region.FullPath path) :
    Region.accepts context event region path = (Region.react context event region path).moved := by
  induction hPath with
  | @atomic region index state hState hAtomic =>
    rw [Region.accepts, hState, react_of_atomic hState hAtomic, moved_ownReaction,
      ← any_isOpen_eq_isSome_choice]
    simp only [hAtomic, Bool.false_or]
  | @composite region inner index state below hState hInner _ ih =>
    rw [Region.accepts, hState]
    simp only [hInner, ih, any_isOpen_eq_isSome_choice]
    cases hBelow : (Region.react context event inner below).path with
    | some path =>
      rw [react_of_inner_moved hState hInner hBelow, Reaction.moved, hBelow]
      rfl
    | none =>
      rw [react_of_inner_idle hState hInner hBelow, Reaction.moved, hBelow,
        ← moved_ownReaction region (index :: below)]
      rfl

theorem Region.moved_react_iff_takes (hRegion : Region.Sound region) {path : List Nat}
    (hPath : region.FullPath path) :
    (Region.react context event region path).moved = true ↔
      ∃ performed, Flat.Takes context event region (Flat.view region path)
        (Flat.view region (Region.after context event region path)) performed := by
  rw [Region.after, Reaction.moved]
  cases hMoved : (Region.react context event region path).path with
  | some after => exact iff_of_true rfl ⟨_, Flat.takes_of_react_eq_some hRegion hPath hMoved⟩
  | none =>
    refine iff_of_false (by simp) ?_
    rintro ⟨performed, hTakes⟩
    exact hTakes.not_ignores (Flat.ignores_of_react_eq_none hPath hMoved).1

end Machine

namespace Execution

variable [Event E]

/-- In some region a transition is taken from the active path to the one after the call. -/
def TakesTransition (execution : Execution C E A S) (event : E) (outcome : Outcome C E A S) :
    Prop :=
  ∃ active active', execution.active = some active ∧ outcome.execution.active = some active' ∧
    ∃ (index : Nat) (region : Machine.Region C E A) (path path' : List Nat) (performed : List A),
      execution.machine.regions[index]? = some region ∧
        active[index]? = some path ∧ active'[index]? = some path' ∧
        Flat.Takes execution.context event region (Flat.view region path)
          (Flat.view region path') performed

/-- The call answers the configuration from before and nothing has been performed. -/
structure Unmoved (execution : Execution C E A S) (outcome : Outcome C E A S) : Prop where
  configuration : execution.configuration = .ok outcome.configuration
  active : outcome.execution.active = execution.active
  sink : outcome.execution.sink = execution.sink
  silent : ∀ action, .firing action ∉ outcome.log

section Reactions

variable {machine : Machine C E A} {context : C} {event : E} {active : List (List Nat)}

theorem mem_reactions {reaction : Reaction A} :
    reaction ∈ reactions machine context event active ↔
      ∃ (index : Nat) (region : Machine.Region C E A) (path : List Nat),
        machine.regions[index]? = some region ∧ active[index]? = some path ∧
          Machine.Region.react context event region path = reaction := by
  rw [reactions, List.mem_iff_getElem?]
  apply exists_congr
  intro index
  rw [List.getElem?_zipWith]
  cases machine.regions[index]? <;> cases active[index]? <;> simp

theorem accepts_eq_any_moved (hActive : List.Forall₂ Region.FullPath machine.regions active) :
    (List.zipWith (Machine.Region.accepts context event) machine.regions active).any id =
      (reactions machine context event active).any (·.moved) := by
  rw [reactions]
  generalize machine.regions = regions at hActive
  induction hActive with
  | nil => rfl
  | cons hPath _ ih =>
    rw [List.zipWith_cons_cons, List.zipWith_cons_cons, List.any_cons, List.any_cons, ih,
      id, Machine.Region.accepts_eq_moved hPath]

theorem zipWith_after_eq_self (hActive : List.Forall₂ Region.FullPath machine.regions active)
    (hStays : ∀ reaction ∈ reactions machine context event active, reaction.moved = false) :
    List.zipWith (Machine.Region.after context event) machine.regions active = active := by
  rw [reactions] at hStays
  generalize machine.regions = regions at hActive hStays
  induction hActive with
  | nil => rfl
  | @cons region path regions active _ _ ih =>
    obtain ⟨hHere, hRest⟩ := List.forall_mem_cons.mp hStays
    have hIdle : (Machine.Region.react context event region path).path = none := by
      simpa [Reaction.moved] using hHere
    rw [List.zipWith_cons_cons, ih hRest, Machine.Region.after, hIdle, Option.getD_none]

theorem reported_of_mem_reactions (hActive : List.Forall₂ Region.FullPath machine.regions active)
    {reaction : Reaction A} (hReaction : reaction ∈ reactions machine context event active) :
    reaction.Reported := by
  obtain ⟨index, region, path, hRegion, hPath, rfl⟩ := mem_reactions.mp hReaction
  exact Machine.Region.reported_react (forall₂_getElem? hActive hRegion hPath)

end Reactions

variable [Action A] [Sink A S] {execution : Execution C E A S} {active : List (List Nat)}
  {event : E} {outcome : Outcome C E A S}

theorem Processed.takesTransition_iff (hFull : execution.Full)
    (hActive : execution.active = some active)
    (hProcessed : Processed execution active event outcome) :
    execution.TakesTransition event outcome ↔
      (reactions execution.machine execution.context event active).any (·.moved) = true := by
  have hPaths := hFull.active active hActive
  rw [List.any_eq_true]
  constructor
  · rintro ⟨_, _, hActive', hAfter, index, region, path, path', performed, hRegion, hPath, hPath',
      hTakes⟩
    cases hActive.symm.trans hActive'
    cases hProcessed.active.symm.trans hAfter
    rw [List.getElem?_zipWith, hRegion, hPath] at hPath'
    cases hPath'
    exact ⟨_, mem_reactions.mpr ⟨index, region, path, hRegion, hPath, rfl⟩,
      (Machine.Region.moved_react_iff_takes (hFull.sound region (List.mem_of_getElem? hRegion))
        (forall₂_getElem? hPaths hRegion hPath)).mpr ⟨performed, hTakes⟩⟩
  · rintro ⟨_, hReaction, hMoved⟩
    obtain ⟨index, region, path, hRegion, hPath, rfl⟩ := mem_reactions.mp hReaction
    obtain ⟨performed, hTakes⟩ :=
      (Machine.Region.moved_react_iff_takes (hFull.sound region (List.mem_of_getElem? hRegion))
        (forall₂_getElem? hPaths hRegion hPath)).mp hMoved
    refine ⟨active, _, hActive, hProcessed.active, index, region, path, _, performed, hRegion, hPath,
      ?_, hTakes⟩
    rw [List.getElem?_zipWith, hRegion, hPath]

theorem Processed.transition_mem_log_iff (hFull : execution.Full)
    (hActive : execution.active = some active)
    (hProcessed : Processed execution active event outcome) :
    (∃ region source target kind, .transition region source target kind ∈ outcome.log) ↔
      (reactions execution.machine execution.context event active).any (·.moved) = true := by
  have hReported : ∀ reaction ∈ reactions execution.machine execution.context event active,
      reaction.Reported := fun _ hReaction =>
    reported_of_mem_reactions (hFull.active active hActive) hReaction
  rw [List.any_eq_true, hProcessed.log]
  constructor
  · rintro ⟨name, source, target, kind, hEntry⟩
    rcases List.mem_append.mp hEntry with hEntry | hEntry
    · rcases mem_perform hEntry with ⟨_, hNote⟩ | ⟨effect, hEffect, hEntry⟩
      · cases hNote
      · obtain ⟨reaction, hReaction, hEffect⟩ := List.mem_flatMap.mp hEffect
        refine ⟨reaction, hReaction, ?_⟩
        -- A reaction that stays has reported refusals only, and this effect is a transition.
        by_contra hStays
        obtain ⟨_, _, _, rfl⟩ := (hReported reaction hReaction).idle (by simpa using hStays) effect hEffect
        cases hEntry
    · split at hEntry
      · cases hEntry
      · cases List.mem_singleton.mp hEntry
  · rintro ⟨reaction, hReaction, hMoved⟩
    obtain ⟨name, source, target, kind, hEffect⟩ := (hReported reaction hReaction).moved hMoved
    exact ⟨name, source, target, kind, List.mem_append_left _ <| entry_mem_perform
      (List.mem_flatMap.mpr ⟨reaction, hReaction, hEffect⟩) execution.sink⟩

theorem Processed.ignored_mem_log_iff (hProcessed : Processed execution active event outcome) :
    .ignored (Event.kind event) ∈ outcome.log ↔
      (reactions execution.machine execution.context event active).any (·.moved) = false := by
  rw [hProcessed.log]
  constructor
  · intro hEntry
    rcases List.mem_append.mp hEntry with hEntry | hEntry
    · rcases mem_perform hEntry with ⟨_, hNote⟩ | ⟨effect, _, hEntry⟩
      · cases hNote
      · cases effect <;> cases hEntry
    · split at hEntry
      · cases hEntry
      · exact eq_false_of_ne_true ‹_›
  · intro hStays
    rw [hStays]
    exact List.mem_append_right _ List.mem_cons_self

/-- Where no region moves, all effects are refusals, so nothing is performed. -/
theorem Processed.unmoved (hFull : execution.Full) (hActive : execution.active = some active)
    (hProcessed : Processed execution active event outcome)
    (hStays : (reactions execution.machine execution.context event active).any (·.moved) = false) :
    execution.Unmoved outcome := by
  have hPaths := hFull.active active hActive
  have hEach : ∀ reaction ∈ reactions execution.machine execution.context event active,
      reaction.moved = false := by simpa using hStays
  have hRefused : ∀ effect ∈ (reactions execution.machine execution.context event active).flatMap
      (·.effects), ∃ region state kind, effect = .refused region state kind := by
    intro effect hEffect
    obtain ⟨reaction, hReaction, hEffect⟩ := List.mem_flatMap.mp hEffect
    exact (reported_of_mem_reactions hPaths hReaction).idle (hEach reaction hReaction) effect hEffect
  have hSame := zipWith_after_eq_self hPaths hEach
  refine ⟨?_, ?_, ?_, ?_⟩
  · rw [Execution.configuration, hActive, hProcessed.configuration, hSame]
  · rw [hProcessed.active, hSame, hActive]
  · have hNone : Effect.actions ((reactions execution.machine execution.context event
        active).flatMap (·.effects)) = [] := by
      rw [List.eq_nil_iff_forall_not_mem]
      intro action hAction
      obtain ⟨_, _, _, hEffect⟩ := hRefused _ (Effect.mem_actions.mp hAction)
      cases hEffect
    rw [hProcessed.sink, ← actions_reactions, hNone]
    rfl
  · intro action hEntry
    rw [hProcessed.log, hStays] at hEntry
    rcases List.mem_append.mp hEntry with hEntry | hEntry
    · rcases mem_perform hEntry with ⟨_, hNote⟩ | ⟨effect, hEffect, hEntry⟩
      · cases hNote
      · obtain ⟨_, _, _, rfl⟩ := hRefused effect hEffect
        cases hEntry
    · cases List.mem_singleton.mp hEntry

/-- Whatever has been called on a machine that was built, once it is started: an event is accepted
exactly if processing it takes a transition, and then only does the log say so and not call the
event ignored. Processing an event that is not accepted changes nothing. -/
theorem accepts_iff_process_takesTransition {declaration : Declaration C E A}
    {machine : Machine C E A} (hBuild : declaration.build = .ok machine) (context : C) (sink : S)
    (calls : List (Call E)) {execution : Execution C E A S}
    (hCalls : (Execution.new machine context sink).calls calls = execution)
    (hStarted : execution.isStarted = true) (event : E) (time : Timestamp) :
    ∃ answer outcome, execution.accepts event = .ok answer ∧
      execution.process event time = .ok outcome ∧
      (answer = true ↔ execution.TakesTransition event outcome) ∧
      (answer = true ↔
        ∃ region source target kind, .transition region source target kind ∈ outcome.log) ∧
      (answer = true ↔ .ignored (Event.kind event) ∉ outcome.log) ∧
      (answer = false → execution.Unmoved outcome) := by
  have hFull : execution.Full :=
    hCalls ▸ (Full.new (Declaration.sound_of_build hBuild) context sink).calls calls
  obtain ⟨active, hActive⟩ := Option.isSome_iff_exists.mp hStarted
  obtain ⟨outcome, hOutcome, hProcessed⟩ := exists_processed hActive event time
  refine ⟨_, outcome, ?_, hOutcome, (hProcessed.takesTransition_iff hFull hActive).symm,
    (hProcessed.transition_mem_log_iff hFull hActive).symm, ?_,
    hProcessed.unmoved hFull hActive⟩
  · rw [accepts, hActive]
    exact congrArg Except.ok (accepts_eq_any_moved (hFull.active active hActive))
  · rw [hProcessed.ignored_mem_log_iff, Bool.not_eq_false]

open MarkIV in
theorem policy_accepts_removal_and_no_second_click :
    ∃ machine, Policy.declaration.build = .ok machine ∧
      ∃ execution : Execution Unit MarkIV.Event MarkIV.Action (Recorder MarkIV.Action Unit),
        (Execution.new machine () ⟨(), []⟩).calls [.start, .process (.brewClicked false true) ⟨0, 0⟩] =
            execution ∧ execution.active = some [[1, 0], [0]] ∧
          (∃ outcome, execution.accepts .potRemoved = .ok true ∧
            execution.process .potRemoved ⟨1, 0⟩ = .ok outcome ∧
            execution.TakesTransition .potRemoved outcome ∧
            .ignored "POT_REMOVED" ∉ outcome.log) ∧
          ∃ outcome, execution.accepts (.brewClicked false true) = .ok false ∧
            execution.process (.brewClicked false true) ⟨1, 0⟩ = .ok outcome ∧
            .ignored "BREW_CLICKED" ∈ outcome.log ∧ execution.Unmoved outcome := by
  refine ⟨_, rfl, _, rfl, rfl, ?_, ?_⟩
  · obtain ⟨answer, outcome, hAnswer, hOutcome, hTakes, _, hIgnored, _⟩ :=
      accepts_iff_process_takesTransition (show Policy.declaration.build = .ok _ from rfl) ()
        (⟨(), []⟩ : Recorder MarkIV.Action Unit) [.start, .process (.brewClicked false true) ⟨0, 0⟩]
        rfl rfl .potRemoved ⟨1, 0⟩
    cases hAnswer
    exact ⟨outcome, rfl, hOutcome, hTakes.mp rfl, hIgnored.mp rfl⟩
  · obtain ⟨answer, outcome, hAnswer, hOutcome, _, _, hIgnored, hUnmoved⟩ :=
      accepts_iff_process_takesTransition (show Policy.declaration.build = .ok _ from rfl) ()
        (⟨(), []⟩ : Recorder MarkIV.Action Unit) [.start, .process (.brewClicked false true) ⟨0, 0⟩]
        rfl rfl (.brewClicked false true) ⟨1, 0⟩
    cases hAnswer
    refine ⟨outcome, rfl, hOutcome, ?_, hUnmoved rfl⟩
    by_contra hSilent
    cases hIgnored.mpr hSilent

end Execution

end Statechart
