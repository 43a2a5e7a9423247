import Statechart.Proofs.Flat.Run

/-!
# What calls answer

Starting and processing said by what changes: each region goes to its own next path, and the sink
performs the actions of the regions one region after the other. The log of a call holds an entry
for each effect, and besides these only the notes of the sink.
-/

namespace Statechart

variable {C E A S : Type}

def Effect.entry [Action A] : Effect A → Log.Entry
  | refused region state event => .refused region state event
  | moved region source target event => .transition region source target event
  | fired action => .firing (Action.name action)

theorem Effect.mem_actions {effects : List (Effect A)} {action : A} :
    action ∈ Effect.actions effects ↔ Effect.fired action ∈ effects := by
  rw [Effect.actions, List.mem_filterMap]
  constructor
  · rintro ⟨effect, hEffect, hAction⟩
    cases effect with
    | fired other =>
      cases hAction
      exact hEffect
    | refused | moved => cases hAction
  · intro hFired
    exact ⟨.fired action, hFired, rfl⟩

/-- What a region does on an event, the log aside. -/
def Machine.Region.performs [Event E] (context : C) (event : E) (region : Machine.Region C E A)
    (path : List Nat) : List A :=
  Effect.actions (Machine.Region.react context event region path).effects

def Machine.Region.startPath (region : Machine.Region C E A) : List Nat :=
  Machine.Region.entryPath region region.label.initial

def Machine.Region.startActions (region : Machine.Region C E A) : List A :=
  Machine.Region.entries region (Machine.Region.startPath region)

namespace Execution

section Log

variable [Action A] [Sink A S]

theorem entry_mem_perform {effect : Effect A} {effects : List (Effect A)} (hEffect : effect ∈ effects)
    (sink : S) : effect.entry ∈ (perform effects sink).2 := by
  induction effects generalizing sink with
  | nil => cases hEffect
  | cons first rest ih =>
    rcases List.mem_cons.mp hEffect with rfl | hRest
    · cases effect <;> exact List.mem_append_left _ List.mem_cons_self
    · cases first <;> exact List.mem_append_right _ (ih hRest _)

theorem mem_perform {entry : Log.Entry} {effects : List (Effect A)} {sink : S}
    (hEntry : entry ∈ (perform effects sink).2) :
    (∃ record, entry = .note record) ∨ ∃ effect ∈ effects, entry = effect.entry := by
  induction effects generalizing sink with
  | nil => cases hEntry
  | cons first rest ih =>
    have hRest : ∀ {sink' : S}, entry ∈ (perform rest sink').2 →
        (∃ record, entry = .note record) ∨ ∃ effect ∈ first :: rest, entry = effect.entry := by
      intro sink' hEntry
      rcases ih hEntry with hNote | ⟨effect, hEffect, hEntry⟩
      · exact Or.inl hNote
      · exact Or.inr ⟨effect, List.mem_cons_of_mem _ hEffect, hEntry⟩
    cases first with
    | refused | moved =>
      rcases List.mem_cons.mp hEntry with hFirst | hEntry
      · exact Or.inr ⟨_, List.mem_cons_self, hFirst⟩
      · exact hRest hEntry
    | fired action =>
      rcases List.mem_append.mp hEntry with hFirst | hEntry
      · rcases List.mem_cons.mp hFirst with hFiring | hNote
        · exact Or.inr ⟨_, List.mem_cons_self, hFiring⟩
        · obtain ⟨record, _, rfl⟩ := List.mem_map.mp hNote
          exact Or.inl ⟨record, rfl⟩
      · exact hRest hEntry

end Log

/-! ## Starting and processing -/

/-- An execution that was fresh, after its start. -/
structure Started [Sink A S] (execution : Execution C E A S) (outcome : Outcome C E A S) : Prop where
  machine : outcome.execution.machine = execution.machine
  context : outcome.execution.context = execution.context
  active : outcome.execution.active =
    some (execution.machine.regions.map Machine.Region.startPath)
  sink : outcome.execution.sink =
    Flat.performAll (execution.machine.regions.flatMap Machine.Region.startActions) execution.sink

/-- An execution that was started, after an event. -/
structure Processed [Event E] [Action A] [Sink A S] (execution : Execution C E A S)
    (paths : List (List Nat)) (event : E) (outcome : Outcome C E A S) : Prop where
  machine : outcome.execution.machine = execution.machine
  context : outcome.execution.context = execution.context
  active : outcome.execution.active = some (List.zipWith
    (Machine.Region.after execution.context event) execution.machine.regions paths)
  sink : outcome.execution.sink = Flat.performAll
    (List.zipWith (Machine.Region.performs execution.context event) execution.machine.regions
      paths).flatten execution.sink
  configuration : outcome.configuration = describe execution.machine (List.zipWith
    (Machine.Region.after execution.context event) execution.machine.regions paths)
  log : outcome.log =
    (perform ((reactions execution.machine execution.context event paths).flatMap (·.effects))
        execution.sink).2 ++
      if (reactions execution.machine execution.context event paths).any (·.moved) then []
      else [.ignored (Event.kind event)]

theorem actions_reactions [Event E] (machine : Machine C E A) (context : C) (event : E)
    (active : List (List Nat)) :
    Effect.actions ((reactions machine context event active).flatMap (·.effects)) =
      (List.zipWith (Machine.Region.performs context event) machine.regions active).flatten := by
  rw [reactions]
  generalize machine.regions = regions
  induction regions generalizing active with
  | nil => rfl
  | cons region rest ih =>
    cases active with
    | nil => rfl
    | cons path paths =>
      rw [List.zipWith_cons_cons, List.flatMap_cons, Effect.actions_append, ih,
        List.zipWith_cons_cons, List.flatten_cons]
      rfl

variable [Action A] [Sink A S] {execution : Execution C E A S}

theorem exists_started (hFresh : execution.active = none) :
    ∃ outcome, execution.start = .ok outcome ∧ Started execution outcome := by
  refine ⟨_, by rw [start, hFresh], rfl, rfl, rfl, ?_⟩
  refine (Flat.sink_perform _ _).trans ?_
  rw [Effect.actions_map_fired]
  rfl

theorem exists_processed [Event E] {paths : List (List Nat)}
    (hActive : execution.active = some paths) (event : E) (time : Timestamp) :
    ∃ outcome, execution.process event time = .ok outcome ∧
      Processed execution paths event outcome := by
  refine ⟨_, by rw [process, hActive], rfl, rfl, ?_, ?_, ?_, rfl⟩
  · exact congrArg some (settle_reactions ..)
  · rw [← actions_reactions]
    exact Flat.sink_perform _ _
  · exact congrArg (describe _) (settle_reactions ..)

end Execution

end Statechart
