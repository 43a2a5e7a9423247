import Statechart.Proofs.Composite.Build
import Statechart.Proofs.Composite.Call

/-!
# Composite states in a run

From the call that enters a composite state to the one that leaves it, the active path goes through
the state, and below it stands where a machine of the region inside alone would stand after its
start and the events processed since. An event that this machine accepts is answered in the whole
as by this machine; any other one is ignored by the region around, or leaves the composite state.
-/

namespace Statechart

variable {C E A S : Type}

/-! ## The region inside, alone -/

/-- Where a region stands that was on a path and got some events. -/
def Machine.Region.pathAfter [Event E] (context : C) (region : Machine.Region C E A)
    (path : List Nat) (events : List E) : List Nat :=
  events.foldl (fun path event => Machine.Region.after context event region path) path

namespace Execution

namespace Call

def event? : Call E → Option E
  | .process event _ => some event
  | _ => none

def events (calls : List (Call E)) : List E :=
  calls.filterMap event?

end Call

/-- An execution of a single region, which is on a path. -/
structure Alone (execution : Execution C E A S) (context : C) (inner : Machine.Region C E A)
    (path : List Nat) : Prop where
  regions : execution.machine.regions = [inner]
  context : execution.context = context
  active : execution.active = some [path]

section Alone

variable {context : C} {inner : Machine.Region C E A} {execution : Execution C E A S}
  {path : List Nat}

theorem Alone.activePath (hAlone : execution.Alone context inner path) :
    execution.activePath 0 = path :=
  activePath_of_active hAlone.active rfl

variable [Event E]

theorem Alone.accepts (hAlone : execution.Alone context inner path) (event : E) :
    execution.accepts event = .ok (Machine.Region.accepts context event inner path) := by
  rw [Execution.accepts, hAlone.active, hAlone.regions, hAlone.context]
  simp

variable [Action A] [Sink A S]

theorem alone_start (id : String) (inner : Machine.Region C E A) (context : C)
    (sink : S) : Alone ((Execution.new (.single id inner) context (⟨sink, []⟩ : Recorder A S)).call
        (.start : Call E)) context inner (Machine.Region.startPath inner) ∧
      ((Execution.new (.single id inner) context (⟨sink, []⟩ : Recorder A S)).call
        (.start : Call E)).sink.performed = Machine.Region.startActions inner := by
  refine ⟨⟨rfl, rfl, rfl⟩, ?_⟩
  rw [performed_call]
  exact List.append_nil _

theorem Alone.exists_process (hAlone : execution.Alone context inner path) (event : E)
    (time : Timestamp) : ∃ outcome, execution.process event time = .ok outcome ∧
      outcome.execution.Alone context inner (Machine.Region.after context event inner path) ∧
      outcome.execution.sink =
        Flat.performAll (Machine.Region.performs context event inner path) execution.sink := by
  obtain ⟨outcome, hOutcome, hProcessed⟩ := exists_processed hAlone.active event time
  have hAfter := hProcessed.active
  have hSink := hProcessed.sink
  rw [hAlone.regions, hAlone.context] at hAfter hSink
  refine ⟨outcome, hOutcome, ⟨?_, ?_, hAfter⟩, ?_⟩
  · rw [hProcessed.machine]
    exact hAlone.regions
  · rw [hProcessed.context]
    exact hAlone.context
  · rw [hSink]
    simp

theorem Alone.calls (hAlone : execution.Alone context inner path) (calls : List (Call E)) :
    (execution.calls calls).Alone context inner
      (Machine.Region.pathAfter context inner path (Call.events calls)) := by
  induction calls generalizing execution path with
  | nil => exact hAlone
  | cons call rest ih =>
    cases call with
    | process event time =>
      obtain ⟨outcome, hOutcome, hNext, _⟩ := hAlone.exists_process event time
      rw [calls_cons, call_process_of_ok hOutcome]
      exact ih hNext
    | start =>
      have hCall : execution.call (.start : Call E) = execution := by
        rw [Execution.call, start, hAlone.active]
      rw [calls_cons, hCall]
      exact ih hAlone
    | accepts | configuration => exact ih hAlone
    | withHistory limit =>
      exact ih (⟨hAlone.regions, hAlone.context, hAlone.active⟩ :
        (execution.withHistory limit).Alone context inner path)

end Alone

/-! ## Stretches -/

section Stretches

variable [Event E]

/-- The state at a path is left: it is active, and the region goes over to other states at its level
or further out. -/
def Leaves (execution : Execution C E A S) (position : Nat) (path : List Nat) (call : Call E) :
    Prop :=
  ∃ level < path.length, execution.Turns position call level ∧
    path <+: execution.activePath position

variable [Action A] [Sink A S]

/-- The state at a path is entered: it is active then, and the region went over to other states at
its level or further out. -/
def Enters (execution : Execution C E A S) (position : Nat) (path : List Nat) (call : Call E) :
    Prop :=
  ∃ level < path.length, execution.Turns position call level ∧
    path <+: (execution.call call).activePath position

/-- The calls after one that enters a state, up to a moment before it is left. -/
inductive Stretch (position : Nat) (path : List Nat) (before : Execution C E A S)
    (entering : Call E) : List (Call E) → Execution C E A S → Prop
  | entered : before.Enters position path entering →
      Stretch position path before entering [] (before.call entering)
  | stays {later : List (Call E)} {now : Execution C E A S} {call : Call E} :
      Stretch position path before entering later now → ¬ now.Leaves position path call →
      Stretch position path before entering (later ++ [call]) (now.call call)

end Stretches

/-- A moment of a stretch of calls through which a composite state stays active, beside the machine
of the region inside: `started` is that machine after its start, and `alone` after the events of
the stretch. -/
structure Mirrors [Event E] [Action A] [Sink A S] (position : Nat) (path : List Nat)
    (region : Machine.Region C E A) (entry : List A)
    (before : Execution C E A (Recorder A S)) (entering : Call E)
    (now started alone : Execution C E A (Recorder A S)) : Prop where
  below : now.activePath position = path ++ alone.activePath 0
  /-- The composite state is entered last but for the region inside, which starts. -/
  entering : ∃ level < path.length, before.GoesOver position region entering level ∧
    before.share position entering =
      Flat.exits ((Flat.view region (before.activePath position)).drop level) ++
        (Flat.entries ((Flat.view region path.dropLast).drop level) ++ entry ++
          started.sink.performed)
  received : ∀ execution ∈ [before, now], ∀ call, (execution.call call).sink.performed =
    execution.sink.performed ++ (execution.shares call).flatten
  /-- The next event moves the region inside and nothing else, or nothing, or it leaves the
  composite state and all that is active inside. -/
  next : ∀ event time time', ∃ answer outcome outcome',
    now.process event time = .ok outcome ∧
    alone.accepts event = .ok answer ∧ alone.process event time' = .ok outcome' ∧
    (answer = true →
      ¬ now.Leaves position path (.process event time) ∧
      outcome.execution.activePath position = path ++ outcome'.execution.activePath 0 ∧
      outcome'.execution.sink.performed =
        alone.sink.performed ++ now.share position (.process event time)) ∧
    (answer = false →
      (outcome.execution.activePath position = now.activePath position ∧
        now.share position (.process event time) = []) ∨
      ∃ level < path.length, now.GoesOver position region (.process event time) level)

theorem Full.exists_active_inside {now : Execution C E A S} {position : Nat}
    {region inner : Machine.Region C E A} {state : Machine.State C E A} {path below : List Nat}
    (hFull : now.Full) (hRegion : now.machine.regions[position]? = some region)
    (hReaches : region.Reaches path state) (hInner : state.nested = some inner)
    (hHere : now.activePath position = path ++ below) : ∃ paths, now.active = some paths ∧
      paths[position]? = some (path ++ below) ∧ inner.FullPath below := by
  cases hActive : now.active with
  | none =>
    rw [activePath, hActive] at hHere
    exact absurd (List.append_eq_nil_iff.mp hHere.symm).1 hReaches.ne_nil
  | some paths =>
    obtain ⟨_, hPath, hFullPath⟩ := exists_getElem?_of_forall₂ (hFull.active paths hActive) hRegion
    cases (activePath_of_active hActive hPath).symm.trans hHere
    exact ⟨paths, rfl, hPath, hReaches.fullPath_below hInner hFullPath⟩

section Stretch

variable [Event E] [Action A] [Sink A S] {position : Nat} {path : List Nat}
  {region inner : Machine.Region C E A} {state : Machine.State C E A}

theorem Stretch.enters {before now : Execution C E A S} {entering : Call E}
    {later : List (Call E)} (hStretch : Stretch position path before entering later now) :
    before.Enters position path entering := by
  induction hStretch with
  | entered hEnters => exact hEnters
  | stays _ _ ih => exact ih

/-- A path that is active after a call that did not enter it was so before and is not left. -/
theorem prefix_of_not_enters {now : Execution C E A S} (hFull : now.Full)
    (hRegion : now.machine.regions[position]? = some region) {call : Call E}
    (hHere : path <+: (now.call call).activePath position)
    (hEnters : ¬ now.Enters position path call) :
    path <+: now.activePath position ∧ ¬ now.Leaves position path call := by
  constructor
  · rcases still_or_goesOver hFull hRegion call with ⟨hStill, _⟩ | ⟨level, hGoes⟩
    · exact hStill ▸ hHere
    · by_cases hLevel : level < path.length
      · exact absurd ⟨level, hLevel, hGoes.turns, hHere⟩ hEnters
      · have hAbove := List.prefix_take_iff.mpr ⟨hHere, Nat.le_of_not_lt hLevel⟩
        rw [hGoes.above] at hAbove
        exact (List.prefix_take_iff.mp hAbove).1
  · rintro ⟨level, hLevel, hTurns, _⟩
    exact hEnters ⟨level, hLevel, hTurns, hHere⟩

theorem GoesOver.enters {before : Execution C E A S} (hFull : before.Full)
    (hRegion : before.machine.regions[position]? = some region)
    (hReaches : region.Reaches path state) (hInner : state.nested = some inner) {call : Call E}
    (hEnters : before.Enters position path call) :
    (before.call call).activePath position = path ++ Machine.Region.startPath inner ∧
    ∃ level < path.length, before.GoesOver position region call level ∧
      before.share position call =
        Flat.exits ((Flat.view region (before.activePath position)).drop level) ++
          (Flat.entries ((Flat.view region path.dropLast).drop level) ++ state.label.entry ++
            Machine.Region.startActions inner) := by
  obtain ⟨level, hLevel, hTurns, below, hBelow⟩ := hEnters
  have hGoes := hTurns.goesOver hFull hRegion
  obtain ⟨holding, target, hEntered⟩ := hGoes.entered
  have hShare := hGoes.share
  rw [← hBelow] at hEntered hShare
  have hSound := hFull.sound region (List.mem_of_getElem? hRegion)
  obtain ⟨_, _, _, hPath⟩ := (hFull.call call).exists_active_inside
    ((machine_call before call).symm ▸ hRegion) hReaches hInner hBelow.symm
  obtain ⟨hStart, hEntries⟩ := Flat.below_eq_startPath (hSound.of_reaches hReaches hInner) hReaches
    hInner hPath hLevel hEntered
  refine ⟨by rw [← hBelow, hStart], level, hLevel, hGoes, ?_⟩
  rw [hShare, hEntries]

section Inside

variable {now : Execution C E A S} {below : List Nat} (hFull : now.Full)
  (hRegion : now.machine.regions[position]? = some region) (hReaches : region.Reaches path state)
  (hInner : state.nested = some inner) (hHere : now.activePath position = path ++ below)

include hFull hRegion hReaches hInner hHere

/-- An event that the region inside accepts moves that region and nothing around it. -/
theorem process_of_accepts {event : E} (time : Timestamp)
    (hAccepts : Machine.Region.accepts now.context event inner below = true) :
    (now.call (.process event time)).activePath position =
        path ++ Machine.Region.after now.context event inner below ∧
      now.share position (.process event time) =
        Machine.Region.performs now.context event inner below ∧
      ¬ now.Leaves position path (.process event time) := by
  obtain ⟨paths, hActive, hPath, hBelow⟩ := hFull.exists_active_inside hRegion hReaches hInner hHere
  have hSound := hFull.sound region (List.mem_of_getElem? hRegion)
  obtain ⟨hAfter, hPerforms, hInwards⟩ := Machine.after_of_accepts
    (hSound.of_reaches hReaches hInner) hReaches hInner hBelow hAccepts
  obtain ⟨hMoved, hShare⟩ := activePath_process hActive hPath hRegion event time
  refine ⟨hMoved.trans hAfter, hShare.trans hPerforms, ?_⟩
  rintro ⟨level, hLevel, hTurns, _⟩
  have hDecides := hTurns.decides hRegion
  rw [hHere] at hDecides
  exact absurd (hInwards level hDecides) (Nat.not_le_of_lt hLevel)

/-- An event that the region inside does not accept does nothing, or is taken at the composite
state or above. -/
theorem process_of_not_accepts {event : E} (time : Timestamp)
    (hAccepts : Machine.Region.accepts now.context event inner below = false) :
    ((now.call (.process event time)).activePath position = now.activePath position ∧
        now.share position (.process event time) = [] ∧
        Machine.Region.after now.context event inner below = below) ∨
      ∃ level < path.length, now.GoesOver position region (.process event time) level := by
  obtain ⟨_, _, _, hBelow⟩ := hFull.exists_active_inside hRegion hReaches hInner hHere
  obtain ⟨hIgnores, hAfter⟩ := Machine.ignores_below_of_not_accepts hBelow hAccepts
  rcases still_or_goesOver hFull hRegion (.process event time) with
    ⟨hStill, hShare⟩ | ⟨level, hGoes⟩
  · exact Or.inl ⟨hStill, hShare, hAfter⟩
  · have hDecides := hGoes.turns.decides hRegion
    rw [hHere, Flat.view_append hReaches hInner] at hDecides
    exact Or.inr ⟨level,
      Flat.length_view_of_reaches hReaches ▸ hDecides.lt_length_of_ignores hIgnores, hGoes⟩

/-- While a composite state is active and not left, the events move the region inside as they would
move it alone. -/
theorem activePath_call_of_not_leaves {call : Call E} (hStays : ¬ now.Leaves position path call) :
    (now.call call).activePath position =
      path ++ Machine.Region.pathAfter now.context inner below (Call.events [call]) := by
  cases call with
  | start =>
    obtain ⟨paths, hActive, _⟩ := hFull.exists_active_inside hRegion hReaches hInner hHere
    rw [Execution.call, start, hActive]
    exact hHere
  | accepts | configuration | withHistory => exact hHere
  | process event time =>
    cases hAccepts : Machine.Region.accepts now.context event inner below with
    | true => exact (process_of_accepts hFull hRegion hReaches hInner hHere time hAccepts).1
    | false =>
      rcases process_of_not_accepts hFull hRegion hReaches hInner hHere time hAccepts with
        ⟨hStill, _, hAfter⟩ | ⟨level, hLevel, hGoes⟩
      · rw [hStill, hHere]
        exact congrArg (path ++ ·) hAfter.symm
      · exact absurd ⟨level, hLevel, hGoes.turns, hHere ▸ List.prefix_append _ _⟩ hStays

end Inside

/-- Through a stretch the active path goes through the composite state, and goes on as the path of
the region inside alone. -/
theorem Stretch.activePath {before now : Execution C E A S} {entering : Call E}
    {later : List (Call E)} (hStretch : Stretch position path before entering later now)
    (hFull : before.Full) (hRegion : before.machine.regions[position]? = some region)
    (hReaches : region.Reaches path state) (hInner : state.nested = some inner) :
    now.Full ∧ now.machine = before.machine ∧ now.context = before.context ∧
      now.activePath position = path ++ Machine.Region.pathAfter before.context inner
        (Machine.Region.startPath inner) (Call.events later) := by
  induction hStretch with
  | entered hEnters =>
    exact ⟨hFull.call _, machine_call _ _, context_call _ _,
      (GoesOver.enters hFull hRegion hReaches hInner hEnters).1⟩
  | @stays later now call _ hStays ih =>
    obtain ⟨hNow, hMachine, hContext, hHere⟩ := ih
    refine ⟨hNow.call call, (machine_call _ _).trans hMachine,
      (context_call _ _).trans hContext, ?_⟩
    rw [activePath_call_of_not_leaves hNow (hMachine ▸ hRegion) hReaches hInner hHere hStays,
      hContext, Call.events, Call.events, Call.events, List.filterMap_append,
      Machine.Region.pathAfter, Machine.Region.pathAfter, Machine.Region.pathAfter,
      List.foldl_append]

end Stretch

section Mirrors

variable [Event E] [Action A] [Sink A S] {position : Nat} {path : List Nat}
  {region inner : Machine.Region C E A} {state : Machine.State C E A}

theorem Stretch.mirrors {before now : Execution C E A (Recorder A S)} {entering : Call E}
    {later : List (Call E)} (hStretch : Stretch position path before entering later now)
    (hFull : before.Full) (hRegion : before.machine.regions[position]? = some region)
    (hReaches : region.Reaches path state) (hInner : state.nested = some inner)
    {started alone : Execution C E A (Recorder A S)}
    (hStarted : started.sink.performed = Machine.Region.startActions inner)
    (hAlone : alone.Alone before.context inner (Machine.Region.pathAfter before.context inner
      (Machine.Region.startPath inner) (Call.events later))) :
    Mirrors position path region state.label.entry before entering now started alone := by
  -- Both stand below the state on the same path: how it came about does not matter any more.
  obtain ⟨hNow, hMachine, hContext, hHere⟩ := hStretch.activePath hFull hRegion hReaches hInner
  generalize Machine.Region.pathAfter before.context inner _ _ = below at hHere hAlone
  have hNowRegion : now.machine.regions[position]? = some region := hMachine ▸ hRegion
  obtain ⟨paths, hActive, _⟩ := hNow.exists_active_inside hNowRegion hReaches hInner hHere
  refine ⟨hHere.trans (congrArg (path ++ ·) hAlone.activePath.symm), ?entering,
    fun execution _ call => performed_call execution call, ?next⟩
  case entering =>
    rw [hStarted]
    exact (GoesOver.enters hFull hRegion hReaches hInner hStretch.enters).2
  case next =>
    intro event time time'
    obtain ⟨outcome, hOutcome, _⟩ := exists_processed hActive event time
    obtain ⟨outcome', hOutcome', hNext, hSink⟩ := hAlone.exists_process event time'
    have hCall := call_process_of_ok hOutcome
    refine ⟨_, outcome, outcome', hOutcome, hAlone.accepts event, hOutcome', ?_, ?_⟩
    · intro hAccepts
      rw [← hContext] at hAccepts
      obtain ⟨hMoved, hShare, hStays⟩ :=
        process_of_accepts hNow hNowRegion hReaches hInner hHere time hAccepts
      rw [← hCall, hMoved, hNext.activePath, hShare, hSink, Flat.performed_performAll, hContext]
      exact ⟨hStays, rfl, rfl⟩
    · intro hAccepts
      rw [← hContext] at hAccepts
      rw [← hCall]
      rcases process_of_not_accepts hNow hNowRegion hReaches hInner hHere time hAccepts with
        ⟨hStill, hShare, _⟩ | hGoes
      · exact Or.inl ⟨hStill, hShare⟩
      · exact Or.inr hGoes

/-- Whenever a composite state is active, it is so since a call that entered it. -/
theorem exists_stretch {initial : Execution C E A S} (hFull : initial.Full)
    (hFresh : initial.active = none) (hRegion : initial.machine.regions[position]? = some region)
    (hPath : path ≠ []) (calls : List (Call E))
    (hHere : path <+: (initial.calls calls).activePath position) :
    ∃ earlier entering later, calls = earlier ++ entering :: later ∧
      Stretch position path (initial.calls earlier) entering later (initial.calls calls) := by
  -- The run is read from its end: either the last call entered the state, or it was active before.
  induction calls using List.reverseRecOn with
  | nil =>
    rw [Execution.calls, List.foldl_nil, activePath, hFresh] at hHere
    exact absurd (List.prefix_nil.mp hHere) hPath
  | append_singleton calls call ih =>
    have hLast : initial.calls (calls ++ [call]) = (initial.calls calls).call call := by
      rw [Execution.calls, Execution.calls, List.foldl_append]
      rfl
    rw [hLast] at hHere ⊢
    by_cases hEnters : (initial.calls calls).Enters position path call
    · exact ⟨calls, call, [], rfl, .entered hEnters⟩
    · obtain ⟨hBefore, hStays⟩ := prefix_of_not_enters (hFull.calls calls)
        ((machine_calls initial calls).symm ▸ hRegion) hHere hEnters
      obtain ⟨earlier, entering, later, hCalls, hStretch⟩ := ih hBefore
      refine ⟨earlier, entering, later ++ [call], ?_, hStretch.stays hStays⟩
      rw [hCalls, List.append_assoc, List.cons_append]

/-- A composite state of a machine that was built, at any depth, runs the region inside as the
machine of that region alone: whenever it is active it was entered by some call, and from then on
until it is left it mirrors that machine after its start and the events processed since. -/
theorem composite_runs_region_inside_alone {declaration : Declaration C E A}
    {machine : Machine C E A} (hBuild : declaration.build = .ok machine)
    {declared inner : Declaration.Region C E A}
    (hDeclared : declaration.regions[position]? = some declared) {state : Declaration.State C E A}
    (hState : declared.stateAt path = some state) (hInner : state.nested = some inner) (context : C)
    (sink : S) {initial : Execution C E A (Recorder A S)}
    (hInitial : initial = .new machine context ⟨sink, []⟩) :
    ∃ region inner', machine.regions[position]? = some region ∧
      (∀ id, Declaration.build (.single id inner) = .ok (.single id inner')) ∧
      (∀ calls, path <+: (initial.calls calls).activePath position →
        ∃ earlier entering later, calls = earlier ++ entering :: later ∧
          Stretch position path (initial.calls earlier) entering later (initial.calls calls)) ∧
      ∀ earlier entering later now,
        Stretch position path (initial.calls earlier) entering later now →
        ∀ id sink' fed, Call.events fed = Call.events later →
          Mirrors position path region state.label.entry (initial.calls earlier) entering now
            ((new (.single id inner') context ⟨sink', []⟩).call .start)
            ((new (.single id inner') context ⟨sink', []⟩).calls (.start :: fed)) := by
  have hReaches := Region.stateAt_eq_some_iff.mp hState
  obtain ⟨region, state', inner', hRegion, hReaches', hEntry, hInner', hSingle⟩ :=
    Declaration.exists_build_single_inside hBuild hDeclared hReaches hInner
  have hFull : initial.Full := hInitial ▸ .new (Declaration.sound_of_build hBuild) context _
  have hHere : initial.machine.regions[position]? = some region := hInitial ▸ hRegion
  refine ⟨region, inner', hRegion, hSingle, ?_, ?_⟩
  · exact exists_stretch hFull (hInitial ▸ rfl) hHere hReaches.ne_nil
  · intro earlier entering later now hStretch id sink' fed hFed
    have hContext : (initial.calls earlier).context = context := by
      rw [context_calls, hInitial]
      rfl
    obtain ⟨hAlone, hStarted⟩ := alone_start id inner' context sink'
    rw [← hEntry]
    refine hStretch.mirrors (hFull.calls earlier) ((machine_calls initial earlier).symm ▸ hHere)
      hReaches' hInner' hStarted ?_
    rw [hContext, ← hFed]
    exact hAlone.calls fed

open MarkIV in
theorem policy_brewRun_entered_again : ∃ machine, Policy.declaration.build = .ok machine ∧
    ∃ state, Policy.brewControl.stateAt [1] = some state ∧ state.nested = some Policy.brewRun ∧
      ∃ (initial now : Execution Unit MarkIV.Event MarkIV.Action (Recorder MarkIV.Action Unit))
        (region inner : Machine.Region Unit MarkIV.Event MarkIV.Action),
        initial = .new machine () ⟨(), []⟩ ∧
        now = initial.calls [.start, .process (.brewClicked false true) ⟨0, 0⟩,
          .process .potRemoved ⟨1, 0⟩, .process .reservoirEmptied ⟨2, 0⟩,
          .process .potRemoved ⟨3, 0⟩, .process (.brewClicked false true) ⟨4, 0⟩] ∧
        now.activePath 0 = [1, 0] ∧ machine.regions[0]? = some region ∧
        Declaration.build (.single "alone" Policy.brewRun) = .ok (.single "alone" inner) ∧
        ∃ earlier entering later, Stretch 0 [1] (initial.calls earlier) entering later now ∧
          Mirrors 0 [1] region [.lightOff] (initial.calls earlier) entering now
            ((new (.single "alone" inner) () ⟨(), []⟩).call .start)
            ((new (.single "alone" inner) () ⟨(), []⟩).calls (.start :: later)) := by
  obtain ⟨machine, hBuild⟩ : ∃ machine, Policy.declaration.build = .ok machine := ⟨_, rfl⟩
  obtain ⟨region, inner, hRegion, hInner, hEntered, hMirrors⟩ :=
    composite_runs_region_inside_alone (A := MarkIV.Action) (S := Unit) hBuild
      (show Policy.declaration.regions[0]? = some Policy.brewControl from rfl)
      (show Policy.brewControl.stateAt [1] = some _ from rfl)
      (show Node.nested _ = some Policy.brewRun from rfl) () () rfl
  have hActive : ((new machine () (⟨(), []⟩ : Recorder MarkIV.Action Unit)).calls
      [.start, .process (.brewClicked false true) ⟨0, 0⟩, .process .potRemoved ⟨1, 0⟩,
        .process .reservoirEmptied ⟨2, 0⟩, .process .potRemoved ⟨3, 0⟩,
        .process (.brewClicked false true) ⟨4, 0⟩]).activePath 0 = [1, 0] := by
    cases hBuild
    rfl
  obtain ⟨earlier, entering, later, _, hStretch⟩ := hEntered _ ⟨[0], hActive.symm⟩
  exact ⟨machine, hBuild, _, rfl, rfl, _, _, region, inner, rfl, rfl, hActive, hRegion,
    hInner "alone", earlier, entering, later, hStretch,
    hMirrors earlier entering later _ hStretch "alone" () later rfl⟩

end Mirrors

end Execution

end Statechart
