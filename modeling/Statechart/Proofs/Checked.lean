import Statechart.MarkIV.Policy
import Statechart.Proofs.Reach

/-!
# Checked calls

The calls on an execution as they run over one buffer of indices for each region: an event is
offered at a depth of the buffer, and a transition cuts the buffer there and extends it again.
Every access is checked. A call answers nothing at all where an index is out of range, where a
path ends above an atomic state so that a region inside an active state would be skipped, where a
path goes on below an atomic state, or where regions and paths differ in number. On reachable
executions none of this happens: the checked calls answer what the calls answer.
-/

namespace Statechart.Checked

variable {C E A S : Type}

structure Work (A : Type) where
  path : List Nat
  effects : List (Effect A)

namespace Work

def push (work : Work A) (index : Nat) : Work A :=
  { work with path := work.path ++ [index] }

def cut (work : Work A) (depth : Nat) : Work A :=
  { work with path := work.path.take depth }

def report (work : Work A) (effect : Effect A) : Work A :=
  { work with effects := work.effects ++ [effect] }

def fire (work : Work A) (actions : List A) : Work A :=
  { work with effects := work.effects ++ actions.map .fired }

end Work

/-! ## Entering and leaving -/

def enter (region : Machine.Region C E A) (index : Nat) (work : Work A) : Option (Work A) :=
  match _hState : region.states[index]? with
  | none => none
  | some state =>
    let work := (work.push index).fire state.label.entry
    match _hInner : state.nested with
    | none => some work
    | some inner => enter inner inner.label.initial work
termination_by sizeOf region.states
decreasing_by exact Region.sizeOf_nested_lt (List.mem_of_getElem? _hState) _hInner

def leave (region : Machine.Region C E A) : List Nat → Work A → Option (Work A)
  | [], _ => none
  | index :: below, work => do
    let state ← region.states[index]?
    let work ← match state.nested with
      | none => some work
      | some inner => leave inner below work
    return work.fire state.label.exit

theorem enter_eq {region : Machine.Region C E A} (hRegion : Machine.Region.Sound region)
    {index : Nat} (hIndex : index < region.states.length) (work : Work A) :
    enter region index work = some
      ⟨work.path ++ Machine.Region.entryPath region index, work.effects ++
        (Machine.Region.entries region (Machine.Region.entryPath region index)).map .fired⟩ := by
  induction region using Region.induction generalizing index work with
  | step region ih =>
    have hState := List.getElem?_eq_getElem hIndex
    have hMember := List.getElem_mem hIndex
    rw [enter]
    split
    · rename_i hNone
      rw [hState] at hNone
      cases hNone
    · rename_i state hSome
      cases hState.symm.trans hSome
      split
      · rename_i hAtomic
        rw [Machine.Region.entryPath_of_atomic hState hAtomic,
          Machine.Region.entries_atomic hState]
        rfl
      · rename_i inner hInner
        have hSound := hRegion.nested hMember hInner
        rw [Machine.Region.entryPath_of_composite hState hInner,
          Machine.Region.entries_composite hState hInner,
          ih _ hMember inner hInner hSound hSound.bounded.initial]
        simp [Work.push, Work.fire]

theorem leave_eq {region : Machine.Region C E A} {path : List Nat} (hPath : region.FullPath path)
    (work : Work A) :
    leave region path work = some (work.fire (Machine.Region.exits region path)) := by
  induction hPath generalizing work with
  | atomic hState hAtomic =>
    rw [leave, hState, Machine.Region.exits_atomic hState]
    simp [hAtomic]
  | composite hState hInner _ ih =>
    rw [leave, hState, Machine.Region.exits_composite hState hInner]
    simp [hInner, ih, Work.fire]

/-! ## Describing -/

/-- The ids along a path from a region down to an atomic state; nothing is left of either. -/
def names : Option (Machine.Region C E A) → List Nat → Option (List String)
  | none, [] => some []
  | none, _ :: _ => none
  | some _, [] => none
  | some region, index :: below => do
    let state ← region.states[index]?
    return state.label.id :: (← names state.nested below)

theorem names_eq {region : Machine.Region C E A} {path : List Nat} (hPath : region.FullPath path) :
    names (some region) path = some (Machine.Region.names region path) := by
  induction hPath with
  | atomic hState hAtomic =>
    simp [names, hState, hAtomic, Machine.Region.names, Node.along]
  | composite hState hInner _ ih =>
    rw [Machine.Region.names, Node.along_cons hState, Node.children_of_nested_eq_some hInner]
    simp [names, hState, hInner, ih, Machine.Region.names]

/-! ## Offering an event -/

variable [Event E]

def offerOwn (context : C) (event : E) (region : Machine.Region C E A) (depth : Nat)
    (state : Machine.State C E A) (work : Work A) : Option (Bool × Work A) :=
  match Machine.choose context event (state.label.candidates (Event.kind event)) with
  | .undeclared => some (false, work)
  | .refused =>
    some (false, work.report (.refused region.label.id state.label.id (Event.kind event)))
  | .taken candidate => do
    let work := work.report
      (.moved region.label.id state.label.id candidate.targetId (Event.kind event))
    let work ← leave region (work.path.drop depth) work
    let work ← enter region candidate.target (work.cut depth)
    return (true, work)

/-- Offers an event to the region whose active state stands at a depth of the buffer. -/
def offer (context : C) (event : E) (region : Machine.Region C E A) (depth : Nat)
    (work : Work A) : Option (Bool × Work A) :=
  match _hState : work.path[depth]?.bind fun index => region.states[index]? with
  | none => none
  | some state =>
    match _hInner : state.nested with
    | none => offerOwn context event region depth state work
    | some inner =>
      if depth + 1 < work.path.length then
        match offer context event inner (depth + 1) work with
        | none => none
        | some (true, work) => some (true, work)
        | some (false, work) => offerOwn context event region depth state work
      else none
termination_by sizeOf region.states
decreasing_by
  obtain ⟨index, _, hState⟩ := Option.bind_eq_some_iff.mp _hState
  exact Region.sizeOf_nested_lt (List.mem_of_getElem? hState) _hInner

def reacts (context : C) (event : E) (region : Machine.Region C E A) : List Nat → Option Bool
  | [] => none
  | index :: below => do
    let state ← region.states[index]?
    let inside ← match state.nested with
      | none => some false
      | some inner => reacts context event inner below
    return inside || (state.label.candidates (Event.kind event)).any fun candidate =>
      candidate.isOpen context event

theorem offerOwn_eq {context : C} {event : E} {region : Machine.Region C E A}
    (hRegion : Machine.Region.Sound region) {path : List Nat} (hPath : region.FullPath path)
    {index : Nat} {state : Machine.State C E A} (hState : region.states[index]? = some state)
    (above : List Nat) (effects : List (Effect A)) :
    offerOwn context event region above.length state ⟨above ++ path, effects⟩ = some
      ((Machine.Region.ownReaction context event region path state).moved,
        ⟨above ++ (Machine.Region.ownReaction context event region path state).path.getD path,
          effects ++ (Machine.Region.ownReaction context event region path state).effects⟩) := by
  rw [offerOwn, Machine.Region.ownReaction]
  cases hChoose : Machine.choose context event (state.label.candidates (Event.kind event)) with
  | undeclared => simp [Reaction.idle, Reaction.moved]
  | refused => simp [Work.report, Reaction.moved]
  | taken candidate =>
    have hTarget := Machine.choose_taken_target hRegion hState hChoose
    simp only [Work.report, List.drop_left, leave_eq hPath, Option.bind_eq_bind, Option.bind_some,
      Work.cut, Work.fire, List.take_left, enter_eq hRegion hTarget]
    simp [Machine.Region.take, Reaction.moved]

theorem offer_of_atomic {context : C} {event : E} {region : Machine.Region C E A} {depth : Nat}
    {work : Work A} {state : Machine.State C E A}
    (hState : (work.path[depth]?.bind fun index => region.states[index]?) = some state)
    (hAtomic : state.nested = none) :
    offer context event region depth work = offerOwn context event region depth state work := by
  rw [offer]
  split
  · rename_i hNone
    cases hState.symm.trans hNone
  · rename_i hSome
    cases hState.symm.trans hSome
    split
    · rfl
    · rename_i hInner
      cases hAtomic.symm.trans hInner

theorem offer_of_composite {context : C} {event : E} {region inner : Machine.Region C E A}
    {depth : Nat} {work : Work A} {state : Machine.State C E A}
    (hState : (work.path[depth]?.bind fun index => region.states[index]?) = some state)
    (hInner : state.nested = some inner) (hDepth : depth + 1 < work.path.length) :
    offer context event region depth work =
      (offer context event inner (depth + 1) work).bind fun answer =>
        if answer.1 then some answer else offerOwn context event region depth state answer.2 := by
  rw [offer]
  split
  · rename_i hNone
    cases hState.symm.trans hNone
  · rename_i hSome
    cases hState.symm.trans hSome
    split
    · rename_i hAtomic
      cases hInner.symm.trans hAtomic
    · rename_i next hNext
      cases hInner.symm.trans hNext
      rw [if_pos hDepth]
      rcases offer context event inner (depth + 1) work with _ | ⟨_ | _, work⟩ <;> rfl

theorem offer_eq (context : C) (event : E) {region : Machine.Region C E A}
    (hRegion : Machine.Region.Sound region) {path : List Nat} (hPath : region.FullPath path)
    (above : List Nat) (effects : List (Effect A)) :
    offer context event region above.length ⟨above ++ path, effects⟩ = some
      ((Machine.Region.react context event region path).moved,
        ⟨above ++ Machine.Region.after context event region path,
          effects ++ (Machine.Region.react context event region path).effects⟩) := by
  -- `above` is the part of the buffer that nothing done below it touches.
  induction hPath generalizing above effects with
  | @atomic region index state hState hAtomic =>
    have hAt : ((above ++ [index])[above.length]?.bind fun i => region.states[i]?) = some state := by
      simpa using hState
    rw [offer_of_atomic hAt hAtomic, offerOwn_eq hRegion (.atomic hState hAtomic) hState,
      Machine.Region.after, Machine.react_of_atomic hState hAtomic]
  | @composite region inner index state below hState hInner hBelow ih =>
    have hAt : ((above ++ index :: below)[above.length]?.bind fun i => region.states[i]?) =
        some state := by
      simpa using hState
    have hDepth : above.length + 1 < (above ++ index :: below).length := by
      have hLength := List.length_pos_iff.mpr hBelow.ne_nil
      simp only [List.length_append, List.length_cons]
      omega
    have hSplit : above ++ index :: below = (above ++ [index]) ++ below := by simp
    have hSound := hRegion.nested (List.mem_of_getElem? hState) hInner
    have hOffer := ih hSound (above ++ [index]) effects
    rw [List.length_append, List.length_singleton, ← hSplit] at hOffer
    rw [offer_of_composite hAt hInner hDepth, hOffer, Option.bind_some]
    simp only [Machine.Region.after]
    cases hMoved : (Machine.Region.react context event inner below).path with
    | some path =>
      rw [Machine.react_of_inner_moved hState hInner hMoved]
      simp [Reaction.moved, hMoved]
    | none =>
      rw [Machine.react_of_inner_idle hState hInner hMoved]
      simp only [Reaction.moved, hMoved, Option.isSome_none, Bool.false_eq_true, if_false,
        Option.getD_none, ← hSplit]
      rw [offerOwn_eq hRegion (.composite hState hInner hBelow) hState, Reaction.moved,
        List.append_assoc]

theorem reacts_eq {context : C} {event : E} {region : Machine.Region C E A} {path : List Nat}
    (hPath : region.FullPath path) :
    reacts context event region path =
      some (Machine.Region.accepts context event region path) := by
  induction hPath with
  | atomic hState hAtomic =>
    rw [reacts, Machine.Region.accepts, hState]
    simp [hAtomic]
  | composite hState hInner _ ih =>
    rw [reacts, Machine.Region.accepts, hState]
    simp [hInner, ih]

/-! ## Regions side by side -/

omit [Event E] in
def describeAll : List (Machine.Region C E A) → List (List Nat) → Option (List ActivePath)
  | [], [] => some []
  | region :: regions, path :: paths => do
    let states ← names (some region) path
    return ⟨region.label.id, states⟩ :: (← describeAll regions paths)
  | _, _ => none

def enterAll : List (Machine.Region C E A) → List (Effect A) →
    Option (List (List Nat) × List (Effect A))
  | [], effects => some ([], effects)
  | region :: regions, effects => do
    let work ← enter region region.label.initial ⟨[], effects⟩
    let (paths, effects) ← enterAll regions work.effects
    return (work.path :: paths, effects)

def offerAll (context : C) (event : E) : List (Machine.Region C E A) → List (List Nat) →
    List (Effect A) → Option (Nat × List (List Nat) × List (Effect A))
  | [], [], effects => some (0, [], effects)
  | region :: regions, path :: paths, effects => do
    let (moved, work) ← offer context event region 0 ⟨path, effects⟩
    let (count, paths, effects) ← offerAll context event regions paths work.effects
    return (moved.toNat + count, work.path :: paths, effects)
  | _, _, _ => none

def reactsAny (context : C) (event : E) :
    List (Machine.Region C E A) → List (List Nat) → Option Bool
  | [], [] => some false
  | region :: regions, path :: paths => do
    if ← reacts context event region path then return true
    reactsAny context event regions paths
  | _, _ => none

section Side

variable {regions : List (Machine.Region C E A)} {active : List (List Nat)}

omit [Event E] in
theorem describeAll_eq (hActive : List.Forall₂ Region.FullPath regions active) :
    describeAll regions active = some (List.zipWith
      (fun region path => ⟨region.label.id, Machine.Region.names region path⟩) regions active) := by
  induction hActive with
  | nil => rfl
  | cons hPath _ ih => simp [describeAll, names_eq hPath, ih]

omit [Event E] in
theorem enterAll_eq (hSound : ∀ region ∈ regions, Machine.Region.Sound region)
    (effects : List (Effect A)) :
    enterAll regions effects = some
      (regions.map fun region => Machine.Region.entryPath region region.label.initial,
        effects ++ (regions.flatMap fun region => Machine.Region.entries region
          (Machine.Region.entryPath region region.label.initial)).map .fired) := by
  induction regions generalizing effects with
  | nil => simp [enterAll]
  | cons region rest ih =>
    have hRegion := hSound region List.mem_cons_self
    have hRest := ih fun region h => hSound region (List.mem_cons_of_mem _ h)
    rw [enterAll, enter_eq hRegion hRegion.bounded.initial]
    simp [hRest]

theorem offerAll_eq {context : C} {event : E}
    (hSound : ∀ region ∈ regions, Machine.Region.Sound region)
    (hActive : List.Forall₂ Region.FullPath regions active) (effects : List (Effect A)) :
    offerAll context event regions active effects = some
      ((List.zipWith (Machine.Region.react context event) regions active).countP (·.moved),
        List.zipWith (Machine.Region.after context event) regions active,
        effects ++ (List.zipWith (Machine.Region.react context event) regions active).flatMap
          (·.effects)) := by
  induction hActive generalizing effects with
  | nil => simp [offerAll]
  | @cons region path rest paths hPath _ ih =>
    have hOffer := offer_eq context event (hSound region List.mem_cons_self) hPath [] effects
    have hRest := ih fun region h => hSound region (List.mem_cons_of_mem _ h)
    rw [List.length_nil, List.nil_append, List.nil_append] at hOffer
    rw [offerAll, hOffer]
    simp only [Option.bind_eq_bind, Option.bind_some, hRest, List.zipWith_cons_cons,
      List.countP_cons, List.flatMap_cons, List.append_assoc]
    cases (Machine.Region.react context event region path).moved <;> simp [Nat.add_comm]

theorem reactsAny_eq {context : C} {event : E}
    (hActive : List.Forall₂ Region.FullPath regions active) :
    reactsAny context event regions active =
      some ((List.zipWith (Machine.Region.accepts context event) regions active).any id) := by
  induction hActive with
  | nil => rfl
  | @cons region path rest paths hPath _ ih =>
    rw [reactsAny, reacts_eq hPath]
    cases hAccepts : Machine.Region.accepts context event region path <;> simp [hAccepts, ih]

end Side

/-! ## Calls -/

omit [Event E] in
def configuration (execution : Execution C E A S) : Option (Except Misuse Configuration) :=
  match execution.active with
  | none => some (.error .notStarted)
  | some active => do return .ok ⟨← describeAll execution.machine.regions active⟩

def accepts (execution : Execution C E A S) (event : E) : Option (Except Misuse Bool) :=
  match execution.active with
  | none => some (.error .notStarted)
  | some active => do
    return .ok (← reactsAny execution.context event execution.machine.regions active)

omit [Event E] in
theorem configuration_eq {execution : Execution C E A S} (hFull : execution.Full) :
    configuration execution = some execution.configuration := by
  rw [configuration, Execution.configuration]
  cases hActive : execution.active with
  | none => rfl
  | some active =>
    simp only [describeAll_eq (hFull.active active hActive)]
    rfl

theorem accepts_eq {execution : Execution C E A S} (hFull : execution.Full) (event : E) :
    accepts execution event = some (execution.accepts event) := by
  rw [accepts, Execution.accepts]
  cases hActive : execution.active with
  | none => rfl
  | some active =>
    simp only [reactsAny_eq (hFull.active active hActive)]
    rfl

variable [Action A] [Sink A S]

omit [Event E] in
def start (execution : Execution C E A S) : Option (Except Misuse (Outcome C E A S)) :=
  match execution.active with
  | some _ => some (.error .alreadyStarted)
  | none => do
    let (active, effects) ← enterAll execution.machine.regions []
    let configuration : Configuration := ⟨← describeAll execution.machine.regions active⟩
    let (sink, log) := Execution.perform effects execution.sink
    return .ok
      { execution := { execution with sink := sink, active := some active }
        configuration := configuration
        log := log ++
          [.started execution.machine.id configuration (Effect.actions effects).length] }

def process (execution : Execution C E A S) (event : E) (time : Timestamp) :
    Option (Except Misuse (Outcome C E A S)) :=
  match execution.active with
  | none => some (.error .notStarted)
  | some active => do
    let regions := execution.machine.regions
    let before : Configuration := ⟨← describeAll regions active⟩
    let (count, active', effects) ← offerAll execution.context event regions active []
    let after : Configuration := ⟨← describeAll regions active'⟩
    let (sink, log) := Execution.perform effects execution.sink
    let step : Step :=
      { event := Event.kind event
        before := before
        after := after
        actions := (Effect.actions effects).map Action.name
        time := time }
    return .ok
      { execution :=
          { execution with
            sink := sink
            active := some active'
            history := execution.history.map (·.record step) }
        configuration := after
        log := log ++ if count = 0 then [.ignored (Event.kind event)] else [] }

omit [Event E] in
theorem start_eq {execution : Execution C E A S} (hFull : execution.Full) :
    start execution = some execution.start := by
  rw [start, Execution.start]
  cases hActive : execution.active with
  | some active => rfl
  | none =>
    have hPaths := Execution.forall₂_fullPath_startPaths hFull.sound
    rw [Execution.startPaths] at hPaths
    simp only [enterAll_eq hFull.sound, Option.bind_eq_bind, Option.bind_some,
      describeAll_eq hPaths, List.nil_append, Effect.actions_map_fired]
    rfl

theorem process_eq {execution : Execution C E A S} (hFull : execution.Full) (event : E)
    (time : Timestamp) : process execution event time = some (execution.process event time) := by
  rw [process, Execution.process]
  cases hActive : execution.active with
  | none => rfl
  | some active =>
    have hPaths := hFull.active active hActive
    have hAfter := Execution.forall₂_fullPath_after execution.context event hFull.sound hPaths
    simp only [describeAll_eq hPaths, offerAll_eq hFull.sound hPaths, describeAll_eq hAfter,
      Option.bind_eq_bind, Option.bind_some, List.nil_append, Execution.settle_reactions]
    rw [Reaction.ite_countP_moved_eq_zero]
    rfl

end Statechart.Checked

namespace Statechart.Execution

variable {C E A S : Type}

structure Names (region : Machine.Region C E A) (path : List Nat) (named : ActivePath) : Prop where
  id : named.region = region.label.id
  states : named.states = (Node.along region.states path).map fun state => state.label.id
  length : named.states.length = path.length
  leaf : ∃ state, (Node.along region.states path).getLast? = some state ∧
    state.nested = none ∧ named.leaf = some state.label.id

theorem names_of_fullPath {region : Machine.Region C E A} {path : List Nat}
    (hPath : region.FullPath path) :
    Names region path ⟨region.label.id, Machine.Region.names region path⟩ := by
  obtain ⟨state, hLast, hAtomic⟩ := hPath.getLast?_along
  refine ⟨rfl, rfl, ?_, state, hLast, hAtomic, ?_⟩
  · rw [Machine.Region.names, List.length_map, hPath.length_along]
  · rw [ActivePath.leaf, Machine.Region.names, List.getLast?_map, hLast]
    rfl

theorem names_describe {machine : Machine C E A} {active : List (List Nat)}
    (hActive : List.Forall₂ Region.FullPath machine.regions active) {index : Nat}
    {region : Machine.Region C E A} {path : List Nat}
    (hRegion : machine.regions[index]? = some region) (hPath : active[index]? = some path) :
    ∃ named, (describe machine active).regions[index]? = some named ∧
      Names region path named := by
  refine ⟨_, ?_, names_of_fullPath (forall₂_getElem? hActive hRegion hPath)⟩
  rw [describe, List.getElem?_zipWith, hRegion, hPath]

variable [Event E] [Action A] [Sink A S]

/-- Each region of a started execution is on a full path and is described by all its names, every
index kept in the machine is in range, and no call fails an access. -/
structure Safe (execution : Execution C E A S) : Prop where
  paths : ∀ active, execution.active = some active →
    List.Forall₂ Region.FullPath execution.machine.regions active
  names : ∀ active, execution.active = some active →
    ∀ (index : Nat) (region : Machine.Region C E A) (path : List Nat),
      execution.machine.regions[index]? = some region → active[index]? = some path →
        ∃ named, (describe execution.machine active).regions[index]? = some named ∧
          Names region path named
  bounded : ∀ region, execution.machine.HasRegion region → Machine.Region.Bounded region
  start : Checked.start execution = some execution.start
  process : ∀ event time,
    Checked.process execution event time = some (execution.process event time)
  accepts : ∀ event, Checked.accepts execution event = some (execution.accepts event)
  configuration : Checked.configuration execution = some execution.configuration

theorem Full.safe {execution : Execution C E A S} (hFull : execution.Full) : execution.Safe where
  paths := hFull.active
  names active hActive _ _ _ hRegion hPath :=
    names_describe (hFull.active active hActive) hRegion hPath
  bounded := by
    rintro inner ⟨region, hRegion, hInner⟩
    exact hFull.sound region hRegion inner hInner
  start := Checked.start_eq hFull
  process := Checked.process_eq hFull
  accepts := Checked.accepts_eq hFull
  configuration := Checked.configuration_eq hFull

/-- Whatever is called on a machine that was built, in whatever order, the execution is safe. -/
theorem safe_of_calls {declaration : Declaration C E A} {machine : Machine C E A}
    (hBuild : declaration.build = .ok machine) (context : C) (sink : S) (calls : List (Call E)) :
    ((Execution.new machine context sink).calls calls).machine = machine ∧
      ((Execution.new machine context sink).calls calls).Safe := by
  have hSound := Declaration.sound_of_build hBuild
  exact ⟨machine_calls _ calls, ((Full.new hSound context sink).calls calls).safe⟩

open MarkIV in
theorem policy_safe_after_interrupted_brew : ∃ machine, Policy.declaration.build = .ok machine ∧
    ∃ execution : Execution Unit MarkIV.Event MarkIV.Action Unit,
      (Execution.new machine () ()).calls [.start, .process (.brewClicked false true) ⟨0, 0⟩,
        .withHistory 3, .accepts .potPartial, .process .potRemoved ⟨1, 0⟩] = execution ∧
      execution.active = some [[1, 1], [0]] ∧ execution.machine = machine ∧ execution.Safe := by
  refine ⟨_, rfl, _, rfl, rfl, ?_⟩
  exact safe_of_calls (show Policy.declaration.build = .ok _ from rfl) () () _

end Statechart.Execution
