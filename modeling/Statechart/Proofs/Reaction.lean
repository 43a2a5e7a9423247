import Statechart.Proofs.Bounds

/-!
# Reactions level by level

A region reacts by what the region inside its active state does, and where that does not move, by
what the active state itself does. The two parts are separated here, so that a fact about
reactions needs one case for each and none for the way in which they are computed.
-/

namespace Statechart

variable {C E A : Type}

@[simp] theorem Effect.actions_map_fired (actions : List A) :
    Effect.actions (actions.map .fired) = actions := by
  induction actions with
  | nil => rfl
  | cons action rest ih => exact congrArg (action :: ·) ih

@[simp] theorem Effect.actions_append (first second : List (Effect A)) :
    Effect.actions (first ++ second) = Effect.actions first ++ Effect.actions second :=
  List.filterMap_append

theorem Reaction.ite_countP_moved_eq_zero {β : Type} (reactions : List (Reaction A)) (ignored moved : β) :
    (if reactions.countP (·.moved) = 0 then ignored else moved) =
      if reactions.any (·.moved) then moved else ignored := by
  by_cases hMoved : reactions.any (·.moved) = true
  · have hCount : reactions.countP (·.moved) ≠ 0 := by
      rw [← Nat.pos_iff_ne_zero, List.countP_pos_iff]
      exact List.any_eq_true.mp hMoved
    rw [if_neg hCount, if_pos hMoved]
  · have hCount : reactions.countP (·.moved) = 0 := by
      rw [List.countP_eq_zero]
      simpa using hMoved
    rw [if_pos hCount, if_neg hMoved]

variable [Event E]

namespace Machine

def State.choice (context : C) (event : E) (state : State C E A) : Option (Candidate C E) :=
  (state.label.candidates (Event.kind event)).find? fun candidate =>
    candidate.isOpen context event

/-- What the active state at the head of a path does by itself, the region inside aside. -/
def Region.ownReaction (context : C) (event : E) (region : Region C E A) (path : List Nat)
    (state : State C E A) : Reaction A :=
  match choose context event (state.label.candidates (Event.kind event)) with
  | .undeclared => .idle
  | .refused => ⟨[.refused region.label.id state.label.id (Event.kind event)], none⟩
  | .taken candidate => Region.take region (Event.kind event) state.label.id path candidate

theorem State.choice_mem {context : C} {event : E} {state : State C E A}
    {candidate : Candidate C E} (h : State.choice context event state = some candidate) :
    candidate ∈ state.label.candidates (Event.kind event) :=
  List.mem_of_find?_eq_some h

section OwnReaction

variable {context : C} {event : E} {region : Region C E A} {path : List Nat} {state : State C E A}

theorem choose_of_choice_eq_some {candidate : Candidate C E}
    (h : State.choice context event state = some candidate) :
    choose context event (state.label.candidates (Event.kind event)) = .taken candidate := by
  rw [State.choice] at h
  cases hCandidates : state.label.candidates (Event.kind event) with
  | nil =>
    rw [hCandidates] at h
    cases h
  | cons first rest =>
    rw [hCandidates] at h
    simp only [choose, h]

theorem choose_of_choice_eq_none (h : State.choice context event state = none) :
    choose context event (state.label.candidates (Event.kind event)) = .undeclared ∨
      choose context event (state.label.candidates (Event.kind event)) = .refused := by
  rw [State.choice] at h
  cases hCandidates : state.label.candidates (Event.kind event) with
  | nil => exact Or.inl rfl
  | cons first rest =>
    rw [hCandidates] at h
    exact Or.inr (by simp only [choose, h])

theorem ownReaction_of_choice_eq_some {candidate : Candidate C E}
    (h : State.choice context event state = some candidate) :
    Region.ownReaction context event region path state =
      Region.take region (Event.kind event) state.label.id path candidate := by
  rw [Region.ownReaction, choose_of_choice_eq_some h]

theorem ownReaction_of_choice_eq_none (h : State.choice context event state = none) :
    (Region.ownReaction context event region path state).path = none ∧
      Effect.actions (Region.ownReaction context event region path state).effects = [] := by
  rw [Region.ownReaction]
  rcases choose_of_choice_eq_none h with hChoose | hChoose <;> rw [hChoose] <;> exact ⟨rfl, rfl⟩

theorem exists_choice_of_ownReaction_eq_some {after : List Nat}
    (h : (Region.ownReaction context event region path state).path = some after) :
    ∃ candidate, State.choice context event state = some candidate := by
  cases hChoice : State.choice context event state with
  | none =>
    rw [(ownReaction_of_choice_eq_none hChoice).1] at h
    cases h
  | some candidate => exact ⟨candidate, rfl⟩

theorem choice_of_ownReaction_eq_none
    (h : (Region.ownReaction context event region path state).path = none) :
    State.choice context event state = none := by
  cases hChoice : State.choice context event state with
  | none => rfl
  | some candidate =>
    rw [ownReaction_of_choice_eq_some hChoice] at h
    cases h

end OwnReaction

section React

variable {context : C} {event : E} {region inner : Region C E A} {index : Nat} {below : List Nat}
  {state : State C E A}

theorem react_of_atomic (hState : region.states[index]? = some state)
    (hAtomic : state.nested = none) :
    Region.react context event region (index :: below) =
      Region.ownReaction context event region (index :: below) state := by
  rw [Region.react, hState]
  simp only [hAtomic, Reaction.idle]
  rw [Region.ownReaction]
  cases choose context event (state.label.candidates (Event.kind event)) <;> rfl

theorem react_of_inner_moved (hState : region.states[index]? = some state)
    (hInner : state.nested = some inner) {path : List Nat}
    (hMoved : (Region.react context event inner below).path = some path) :
    Region.react context event region (index :: below) =
      ⟨(Region.react context event inner below).effects, some (index :: path)⟩ := by
  rw [Region.react, hState]
  simp only [hInner, hMoved]

theorem react_of_inner_idle (hState : region.states[index]? = some state)
    (hInner : state.nested = some inner)
    (hIdle : (Region.react context event inner below).path = none) :
    Region.react context event region (index :: below) =
      ⟨(Region.react context event inner below).effects ++
          (Region.ownReaction context event region (index :: below) state).effects,
        (Region.ownReaction context event region (index :: below) state).path⟩ := by
  rw [Region.react, hState]
  simp only [hInner, hIdle]
  rw [Region.ownReaction]
  cases choose context event (state.label.candidates (Event.kind event)) with
  | undeclared =>
    simp only [Reaction.idle, List.append_nil]
    exact congrArg (Reaction.mk _) hIdle
  | refused => rfl
  | taken candidate => rfl

end React

theorem choose_taken_target {context : C} {event : E} {region : Region C E A}
    (hRegion : Region.Sound region) {index : Nat} {state : State C E A}
    (hState : region.states[index]? = some state) {candidate : Candidate C E}
    (hTaken : choose context event (state.label.candidates (Event.kind event)) = .taken candidate) :
    candidate.target < region.states.length := by
  apply hRegion.bounded.targets state (List.mem_of_getElem? hState) (Event.kind event)
  cases hChoice : State.choice context event state with
  | none => rcases choose_of_choice_eq_none hChoice with h | h <;> rw [h] at hTaken <;> cases hTaken
  | some chosen =>
    rw [choose_of_choice_eq_some hChoice] at hTaken
    cases hTaken
    exact State.choice_mem hChoice

theorem Region.Sound.fullPath_of_choice {context : C} {event : E} {region : Region C E A}
    (hRegion : Region.Sound region) {index : Nat} {state : State C E A}
    (hState : region.states[index]? = some state) {candidate : Candidate C E}
    (hChoice : State.choice context event state = some candidate) :
    region.FullPath (Region.entryPath region candidate.target) :=
  hRegion.fullPath_entryPath (hRegion.bounded.targets state (List.mem_of_getElem? hState) _ candidate
    (State.choice_mem hChoice))

theorem Region.Sound.fullPath_ownReaction {context : C} {event : E} {region : Region C E A}
    (hRegion : Region.Sound region) {index : Nat} {state : State C E A}
    (hState : region.states[index]? = some state) {path after : List Nat}
    (hMoved : (Region.ownReaction context event region path state).path = some after) :
    region.FullPath after := by
  cases hChoice : State.choice context event state with
  | none =>
    rw [(ownReaction_of_choice_eq_none hChoice).1] at hMoved
    cases hMoved
  | some candidate =>
    rw [ownReaction_of_choice_eq_some hChoice, Region.take] at hMoved
    cases hMoved
    exact hRegion.fullPath_of_choice hState hChoice

/-- A region on a full path moves to a full path, at whatever level it moves. -/
theorem Region.Sound.fullPath_react {context : C} {event : E} {region : Region C E A}
    (hRegion : Region.Sound region) {path after : List Nat} (hPath : region.FullPath path)
    (hMoved : (Region.react context event region path).path = some after) :
    region.FullPath after := by
  induction hPath generalizing after with
  | atomic hState hAtomic =>
    rw [react_of_atomic hState hAtomic] at hMoved
    exact hRegion.fullPath_ownReaction hState hMoved
  | @composite region inner index state below hState hInner _ ih =>
    cases hBelow : (Region.react context event inner below).path with
    | none =>
      rw [react_of_inner_idle hState hInner hBelow] at hMoved
      exact hRegion.fullPath_ownReaction hState hMoved
    | some path =>
      rw [react_of_inner_moved hState hInner hBelow] at hMoved
      cases hMoved
      exact .composite hState hInner
        (ih (hRegion.nested (List.mem_of_getElem? hState) hInner) hBelow)

def Region.after (context : C) (event : E) (region : Region C E A) (path : List Nat) : List Nat :=
  (Region.react context event region path).path.getD path

theorem Region.Sound.fullPath_after {context : C} {event : E} {region : Region C E A}
    (hRegion : Region.Sound region) {path : List Nat} (hPath : region.FullPath path) :
    region.FullPath (Region.after context event region path) := by
  rw [Region.after]
  cases hMoved : (Region.react context event region path).path with
  | none => exact hPath
  | some after => exact hRegion.fullPath_react hPath hMoved

end Machine

end Statechart
