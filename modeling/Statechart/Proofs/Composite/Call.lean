import Statechart.Proofs.Composite

/-!
# Calls region by region

What a call does to one region of a machine. The actions that the sink receives in a call are the
shares of the regions, one after the other. A region stays as it is and its share is empty, or it
goes over to other states at some level: the active states from there inwards are left, and a state
is entered there with the chain of initial states inside it.
-/

namespace Statechart

variable {C E A S : Type}

namespace Execution

/-! ## Shares -/

section Shares

variable [Event E]

/-- What each region performs in a call. -/
def shares (execution : Execution C E A S) : Call E → List (List A)
  | .start =>
    if execution.isStarted then []
    else execution.machine.regions.map Machine.Region.startActions
  | .process event _ => List.zipWith (Machine.Region.performs execution.context event)
      execution.machine.regions (execution.active.getD [])
  | _ => []

def share (execution : Execution C E A S) (position : Nat) (call : Call E) : List A :=
  (execution.shares call)[position]?.getD []

variable [Action A] [Sink A S]

/-- What the sink receives in a call are the shares of the regions, one after the other. -/
theorem performed_call (execution : Execution C E A (Recorder A S)) (call : Call E) :
    (execution.call call).sink.performed =
      execution.sink.performed ++ (execution.shares call).flatten := by
  cases call with
  | start =>
    cases hActive : execution.active with
    | some paths => simp [Execution.call, start, shares, isStarted, hActive]
    | none =>
      obtain ⟨outcome, hOutcome, hStarted⟩ := exists_started hActive
      rw [Execution.call, hOutcome]
      simp only [hStarted.sink, Flat.performed_performAll, shares, isStarted, hActive,
        Option.isSome_none, Bool.false_eq_true, if_false, List.flatMap_def]
  | process event time =>
    cases hActive : execution.active with
    | none => simp [Execution.call, process, shares, hActive]
    | some paths =>
      obtain ⟨outcome, hOutcome, hProcessed⟩ := exists_processed hActive event time
      rw [call_process_of_ok hOutcome]
      simp only [hProcessed.sink, Flat.performed_performAll, shares, hActive, Option.getD_some]
  | accepts | configuration | withHistory => simp [Execution.call, shares, withHistory]

end Shares

/-! ## Going over to other states -/

/-- In the call the region at a position goes over to other states from a level on: the active
states from there inwards are left, and others are entered. -/
inductive Turns [Event E] (execution : Execution C E A S) (position : Nat) : Call E → Nat → Prop
  | start : execution.active = none → Turns execution position .start 0
  | process {region : Machine.Region C E A} {paths : List (List Nat)} {path : List Nat} {event : E}
      {time : Timestamp} {level : Nat} : execution.machine.regions[position]? = some region →
      execution.active = some paths → paths[position]? = some path →
      Flat.Decides execution.context event (Flat.view region path) level →
      Turns execution position (.process event time) level

/-- A call in which the region at a position goes over to other states from a level on: what stands
above stays, its share are the exits of the states left and the entries of those entered, and these
are a state and the chain of initial states inside it. -/
structure GoesOver [Event E] [Action A] [Sink A S] (execution : Execution C E A S)
    (position : Nat) (region : Machine.Region C E A) (call : Call E) (level : Nat) : Prop where
  turns : execution.Turns position call level
  above : ((execution.call call).activePath position).take level =
    (execution.activePath position).take level
  share : execution.share position call =
    Flat.exits ((Flat.view region (execution.activePath position)).drop level) ++
      Flat.entries ((Flat.view region ((execution.call call).activePath position)).drop level)
  entered : ∃ holding target, Flat.Enters holding target
    ((Flat.view region ((execution.call call).activePath position)).drop level)

theorem activePath_of_active {execution : Execution C E A S} {position : Nat}
    {paths : List (List Nat)} {path : List Nat} (hActive : execution.active = some paths)
    (hPath : paths[position]? = some path) : execution.activePath position = path := by
  rw [activePath, hActive, Option.bind_some, hPath, Option.getD_some]

section Calls

variable [Event E] [Action A] [Sink A S] {execution : Execution C E A S} {position : Nat}
  {region : Machine.Region C E A}

theorem activePath_start (hFresh : execution.active = none)
    (hRegion : execution.machine.regions[position]? = some region) :
    (execution.call (.start : Call E)).activePath position = Machine.Region.startPath region ∧
      execution.share position (.start : Call E) = Machine.Region.startActions region := by
  obtain ⟨outcome, hOutcome, hStarted⟩ := exists_started hFresh
  constructor
  · rw [Execution.call, hOutcome]
    refine activePath_of_active hStarted.active ?_
    rw [List.getElem?_map, hRegion]
    rfl
  · rw [share, shares, isStarted, hFresh]
    simp [hRegion]

theorem activePath_process {paths : List (List Nat)} {path : List Nat}
    (hActive : execution.active = some paths) (hPath : paths[position]? = some path)
    (hRegion : execution.machine.regions[position]? = some region) (event : E) (time : Timestamp) :
    (execution.call (.process event time)).activePath position =
        Machine.Region.after execution.context event region path ∧
      execution.share position (.process event time) =
        Machine.Region.performs execution.context event region path := by
  obtain ⟨outcome, hOutcome, hProcessed⟩ := exists_processed hActive event time
  constructor
  · rw [call_process_of_ok hOutcome]
    refine activePath_of_active hProcessed.active ?_
    rw [List.getElem?_zipWith, hRegion, hPath]
  · rw [share, shares, hActive, Option.getD_some, List.getElem?_zipWith, hRegion, hPath]
    rfl

omit [Action A] [Sink A S] in
theorem Turns.decides {event : E} {time : Timestamp} {level : Nat}
    (hTurns : execution.Turns position (.process event time) level)
    (hRegion : execution.machine.regions[position]? = some region) :
    Flat.Decides execution.context event (Flat.view region (execution.activePath position))
      level := by
  cases hTurns with
  | process hRegion' hActive hPath hDecides =>
    cases hRegion.symm.trans hRegion'
    rw [activePath_of_active hActive hPath]
    exact hDecides

theorem Turns.goesOver (hFull : execution.Full)
    (hRegion : execution.machine.regions[position]? = some region) {call : Call E} {level : Nat}
    (hTurns : execution.Turns position call level) :
    execution.GoesOver position region call level := by
  cases hTurns with
  | start hFresh =>
    have hSound := hFull.sound region (List.mem_of_getElem? hRegion)
    have hNone : execution.activePath position = [] := by
      rw [activePath, hFresh]
      rfl
    obtain ⟨hAfter, hShare⟩ := activePath_start (E := E) hFresh hRegion
    refine ⟨.start hFresh, rfl, ?_, ?_⟩
    · rw [hShare, hAfter, hNone, List.drop_zero, List.drop_zero, Flat.entries_view]
      rfl
    · rw [hAfter]
      exact ⟨region, _, Flat.enters_view hSound hSound.bounded.initial⟩
  | @process region' paths path event time _ hRegion' hActive hPath hDecides =>
    cases hRegion.symm.trans hRegion'
    have hSound := hFull.sound region (List.mem_of_getElem? hRegion)
    have hFullPath := forall₂_getElem? (hFull.active paths hActive) hRegion hPath
    have hHere := activePath_of_active hActive hPath
    obtain ⟨hAfter, hShare⟩ := activePath_process hActive hPath hRegion event time
    have hStep := Flat.turns_of_decides hSound hFullPath hDecides
    refine ⟨.process hRegion hActive hPath hDecides, ?_, ?_, ?_⟩
    · rw [hAfter, hHere]
      exact hStep.above
    · rw [hShare, hAfter, hHere]
      exact hStep.performs
    · rw [hAfter]
      exact hStep.enters

/-- A call leaves a region as it is, or lets it go over to other states at some level. -/
theorem still_or_goesOver (hFull : execution.Full)
    (hRegion : execution.machine.regions[position]? = some region) (call : Call E) :
    ((execution.call call).activePath position = execution.activePath position ∧
      execution.share position call = []) ∨
    ∃ level, execution.GoesOver position region call level := by
  cases call with
  | accepts | configuration | withHistory => exact Or.inl ⟨rfl, rfl⟩
  | start =>
    cases hActive : execution.active with
    | none => exact Or.inr ⟨0, Turns.goesOver hFull hRegion (.start hActive)⟩
    | some paths =>
      left
      simp [Execution.call, start, share, shares, isStarted, hActive]
  | process event time =>
    cases hActive : execution.active with
    | none =>
      left
      simp [Execution.call, process, share, shares, hActive]
    | some paths =>
      obtain ⟨path, hPath, hFullPath⟩ :=
        exists_getElem?_of_forall₂ (hFull.active paths hActive) hRegion
      have hSound := hFull.sound region (List.mem_of_getElem? hRegion)
      rcases Flat.ignores_or_turns hSound hFullPath execution.context event with
        ⟨_, hStill, hSilent⟩ | ⟨level, hStep⟩
      · left
        obtain ⟨hAfter, hShare⟩ := activePath_process hActive hPath hRegion event time
        rw [hAfter, hShare, hStill, hSilent]
        exact ⟨(activePath_of_active hActive hPath).symm, rfl⟩
      · exact Or.inr ⟨level, Turns.goesOver hFull hRegion
          (.process hRegion hActive hPath hStep.decides)⟩

end Calls

end Execution

end Statechart
